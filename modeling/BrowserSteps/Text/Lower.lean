/-!
Lower case, as far as it decides whether a text spells an ASCII word.
-/

namespace BrowserSteps.Text

/-- Lower case of ASCII letters and of the Kelvin sign, the only other character whose
lower case is a single ASCII letter. -/
def lowerChar (c : Char) : Char := if c.toNat = 0x212a then 'k' else c.toLower

/-- A text in lower case, for comparing it with ASCII words. -/
def lower (s : String) : String := String.ofList (s.toList.map lowerChar)

end BrowserSteps.Text
