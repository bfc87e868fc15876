import BrowserSteps.Json.Reader
import BrowserSteps.Proofs.Json.Within

/-!
What the readers of tokens leave is an end of the text they are given.
-/

namespace BrowserSteps.Json

theorem suffix_skipSpace (s : List Char) : skipSpace s <:+ s := List.dropWhile_suffix _

theorem suffix_of_skipSpace_eq {s rest : List Char} {c : Char} (h : skipSpace s = c :: rest) :
    rest <:+ s :=
  (List.suffix_cons c rest).trans (h ▸ suffix_skipSpace s)

theorem suffix_of_hexQuad? {s rest : List Char} {n : Nat} (h : hexQuad? s = some (n, rest)) :
    rest <:+ s := by
  unfold hexQuad? at h
  split at h
  next a b c d rest =>
    simp only [Option.bind_eq_bind, Option.bind_eq_some_iff, Option.pure_def, Option.some.injEq,
      Prod.mk.injEq] at h
    obtain ⟨-, -, -, -, -, -, -, -, -, rfl⟩ := h
    exact List.suffix_append [a, b, c, d] rest
  next => cases h

theorem suffix_of_lowHalf? {s rest : List Char} {n : Nat} (h : lowHalf? s = some (n, rest)) :
    rest <:+ s := by
  unfold lowHalf? at h
  split at h
  next body =>
    split at h
    next low after hquad =>
      split at h
      · cases h
        exact (suffix_of_hexQuad? hquad).trans (List.suffix_append ['\\', 'u'] body)
      · cases h
    next => cases h
  next => cases h

theorem suffix_of_stringPiece? {s rest : List Char} {p : Piece}
    (h : stringPiece? s = some (p, rest)) : rest <:+ s := by
  unfold stringPiece? at h
  split at h
  case h_1 => cases h
  case h_2 body =>
    have hbody : body <:+ '\\' :: 'u' :: body := List.suffix_append ['\\', 'u'] body
    split at h
    next => cases h
    next n after hquad =>
      have hafter := (suffix_of_hexQuad? hquad).trans hbody
      split at h
      · split at h
        next low more hlow =>
          obtain ⟨-, rfl⟩ := Prod.mk.inj (Option.some.inj h)
          exact (suffix_of_lowHalf? hlow).trans hafter
        next =>
          cases h
          exact hafter
      · cases h
        exact hafter
  case h_3 =>
    obtain ⟨_, -, heq⟩ := Option.map_eq_some_iff.mp h
    cases heq
    exact List.suffix_append [_, _] _
  case h_4 => cases h
  case h_5 =>
    split at h
    · cases h
    · cases h
      exact List.suffix_cons _ _

theorem suffix_of_stringBody? {bound : Nat} {s rest : List Char} {ps : List Piece}
    (h : stringBody? bound s = some (ps, rest)) : rest <:+ s := by
  fun_induction stringBody? bound s generalizing ps with
  | case1 => cases h
  | case2 =>
      cases h
      exact List.suffix_cons _ _
  | case3 => cases h
  | case4 bound s notQuote p body hpiece ih =>
      obtain ⟨⟨ps, after⟩, hbody, heq⟩ := Option.map_eq_some_iff.mp h
      cases heq
      exact (ih hbody).trans (suffix_of_stringPiece? hpiece)

theorem suffix_of_readString {s rest : List Char} {ps : List Piece}
    (h : readString s = .ok (ps, rest)) : rest <:+ s := by
  unfold readString at h
  split at h
  next hbody =>
    cases h
    exact suffix_of_stringBody? hbody
  next => cases h

/-- A string is refused as malformed only. -/
theorem readString_error {s : List Char} {e : ReadError} (h : readString s = .error e) :
    e = .malformed := by
  unfold readString at h
  split at h
  · cases h
  · exact (Except.error.inj h).symm

theorem suffix_splitFraction (s : List Char) : (splitFraction s).2 <:+ s := by
  unfold splitFraction
  split
  next rest =>
    dsimp only
    split
    · exact List.suffix_rfl
    · exact (List.drop_suffix _ rest).trans (List.suffix_cons '.' rest)
  next => exact List.suffix_rfl

theorem suffix_splitSign (s : List Char) : (Text.splitSign s).2 <:+ s := by
  unfold Text.splitSign
  split
  · exact List.suffix_cons _ _
  · exact List.suffix_cons _ _
  · exact List.suffix_rfl

theorem suffix_splitExponent (s : List Char) : (splitExponent s).2 <:+ s := by
  unfold splitExponent
  split
  next c rest =>
    split
    · dsimp only
      split
      · exact List.suffix_rfl
      · exact ((List.drop_suffix _ _).trans (suffix_splitSign rest)).trans (List.suffix_cons c rest)
    · exact List.suffix_rfl
  next => exact List.suffix_rfl

theorem suffix_splitWhole (s : List Char) : (splitWhole s).2 <:+ s := by
  unfold splitWhole
  split
  next rest => exact List.suffix_cons '0' rest
  next => exact List.dropWhile_suffix _

theorem suffix_of_readNumber {negative : Bool} {s rest : List Char} {value : Json}
    (h : readNumber negative s = .ok (value, rest)) : rest <:+ s := by
  have hparts : (splitExponent (splitFraction (splitWhole s).2).2).2 <:+ s :=
    ((suffix_splitExponent _).trans (suffix_splitFraction _)).trans (suffix_splitWhole s)
  simp only [readNumber] at h
  split at h
  · cases h
  · split at h
    · split at h
      · cases h
      · cases h
        exact hparts
    · cases h
      exact hparts

theorem suffix_of_readAtom {s rest : List Char} {value : Json}
    (h : readAtom s = .ok (value, rest)) : rest <:+ s := by
  unfold readAtom at h
  split at h
  case h_7 body _ => exact (suffix_of_readNumber h).trans (List.suffix_cons '-' body)
  case h_8 => exact suffix_of_readNumber h
  case h_1 => cases h; exact List.suffix_append ['n', 'u', 'l', 'l'] _
  case h_2 => cases h; exact List.suffix_append ['t', 'r', 'u', 'e'] _
  case h_3 => cases h; exact List.suffix_append ['f', 'a', 'l', 's', 'e'] _
  case h_4 => cases h; exact List.suffix_append ['N', 'a', 'N'] _
  case h_5 => cases h; exact List.suffix_append ['I', 'n', 'f', 'i', 'n', 'i', 't', 'y'] _
  case h_6 => cases h; exact List.suffix_append ['-', 'I', 'n', 'f', 'i', 'n', 'i', 't', 'y'] _

end BrowserSteps.Json
