import BrowserSteps.Datum.Display
import BrowserSteps.Files.Tree
import BrowserSteps.Number
import BrowserSteps.Text.Lower
import BrowserSteps.Yaml.Fault

/-!
The configuration: ten fields of four kinds, and how a datum becomes the value of a field.
Every datum is a truth value and a text; numbers come from numbers, truth values and texts
that write numbers.
-/

namespace BrowserSteps

structure Config where
  dataDirectory : String := "data"
  headed : Bool := false
  /-- Seconds after which a run is cut; zero for never. -/
  runTimeout : Number := .whole 0
  throttling : Bool := false
  latency : Int := 500
  download : Int := 1000000
  upload : Int := 500000
  templatesDirectory : String := "templates"
  viewportWidth : Int := 1280
  viewportHeight : Int := 720
  deriving Inhabited

namespace Config

/-- Kinds of fields. -/
inductive Kind where
  | text
  | truth
  | whole
  | seconds
  deriving DecidableEq, Repr

/-- The values of a kind. -/
@[reducible] def Kind.Value : Kind → Type
  | .text => String
  | .truth => Bool
  | .whole => Int
  | .seconds => Number

inductive Field where
  | dataDirectory
  | headed
  | runTimeout
  | throttling
  | latency
  | download
  | upload
  | templatesDirectory
  | viewportWidth
  | viewportHeight
  deriving DecidableEq, Repr

namespace Field

def all : List Field := [
  .dataDirectory, .headed, .runTimeout, .throttling, .latency, .download, .upload,
  .templatesDirectory, .viewportWidth, .viewportHeight]

/-- The name of a field in files and among overrides. -/
def name : Field → String
  | .dataDirectory => "data_dir"
  | .headed => "headed"
  | .runTimeout => "run_timeout"
  | .throttling => "network_throttling"
  | .latency => "network_latency"
  | .download => "network_download"
  | .upload => "network_upload"
  | .templatesDirectory => "templates_dir"
  | .viewportWidth => "viewport_width"
  | .viewportHeight => "viewport_height"

def ofName? (name : String) : Option Field := all.find? (·.name = name)

@[reducible] def kind : Field → Kind
  | .dataDirectory | .templatesDirectory => .text
  | .headed | .throttling => .truth
  | .runTimeout => .seconds
  | .latency | .download | .upload | .viewportWidth | .viewportHeight => .whole

theorem mem_all (f : Field) : f ∈ all := by cases f <;> decide

theorem ofName?_name (f : Field) : ofName? f.name = some f := by cases f <;> decide

end Field

/-- The value of a field. -/
def get (c : Config) : (f : Field) → f.kind.Value
  | .dataDirectory => c.dataDirectory
  | .headed => c.headed
  | .runTimeout => c.runTimeout
  | .throttling => c.throttling
  | .latency => c.latency
  | .download => c.download
  | .upload => c.upload
  | .templatesDirectory => c.templatesDirectory
  | .viewportWidth => c.viewportWidth
  | .viewportHeight => c.viewportHeight

/-- Gives a field a value. -/
def put (c : Config) : (f : Field) → f.kind.Value → Config
  | .dataDirectory, v => { c with dataDirectory := v }
  | .headed, v => { c with headed := v }
  | .runTimeout, v => { c with runTimeout := v }
  | .throttling, v => { c with throttling := v }
  | .latency, v => { c with latency := v }
  | .download, v => { c with download := v }
  | .upload, v => { c with upload := v }
  | .templatesDirectory, v => { c with templatesDirectory := v }
  | .viewportWidth, v => { c with viewportWidth := v }
  | .viewportHeight, v => { c with viewportHeight := v }

@[simp] theorem get_put_self (c : Config) (f : Field) (v : f.kind.Value) :
    (c.put f v).get f = v := by cases f <;> rfl

theorem get_put_of_ne (c : Config) {f g : Field} (v : f.kind.Value) (h : g ≠ f) :
    (c.put f v).get g = c.get g := by
  cases f <;> cases g <;> first | rfl | exact absurd rfl h

/-- Why a datum does not become the value of a field. -/
inductive Misfit where
  | notNumber
  /-- An infinite number of units. -/
  | infinite
  /-- A whole number beyond all binary64 numbers. -/
  | huge
  /-- A whole number whose digits are too many to be written. -/
  | unwritable
  deriving DecidableEq, Repr

/-- A datum as a text. -/
def textOf (d : Datum) : Except Misfit String :=
  if d.isUnwritable then .error .unwritable else .ok d.display

/-- Words that count as true, whatever their case and the blanks around them. -/
def trueWords : List String := ["true", "1", "yes", "on"]

/-- A datum as a truth value. -/
def truthOf : Datum → Except Misfit Bool
  | .bool b => .ok b
  | d => (textOf d).map fun text => Text.lower (Text.trim text) ∈ trueWords

/-- The text that a datum is, if it is one; ASCII bytes count as text. -/
def numeral? : Datum → Option String
  | .text s => some s
  | .binary bytes =>
    if bytes.all (· < 128) then some (String.ofList (bytes.map fun b => Char.ofNat b.toNat))
    else none
  | _ => none

/-- A datum as a whole number; a fraction is cut off. -/
def wholeOf (d : Datum) : Except Misfit Int :=
  match d with
  | .bool b => .ok (if b then 1 else 0)
  | .int n => .ok n
  | .float x =>
    match Decimal.Binary.ofFloat x with
    | .finite b => .ok b.truncate
    | .infinite _ => .error .infinite
    | .notANumber => .error .notNumber
  | d =>
    match (numeral? d).map Text.readInteger with
    | some (.ok n) => .ok n
    | _ => .error .notNumber

/-- A datum as a number of seconds. -/
def secondsOf (d : Datum) : Except Misfit Number :=
  match d with
  | .bool b => .ok (.real (if b then 1.0 else 0.0))
  | .int n =>
    match floatOfInt? n with
    | some x => .ok (.real x)
    | none => .error .huge
  | .float x => .ok (.real x)
  | d =>
    match (numeral? d).bind Text.readFloat? with
    | some x => .ok (.real x)
    | none => .error .notNumber

/-- A datum as a value of a kind. -/
def convert : (k : Kind) → Datum → Except Misfit k.Value
  | .text, d => textOf d
  | .truth, d => truthOf d
  | .whole, d => wholeOf d
  | .seconds, d => secondsOf d

/-- What can be wrong with a configuration. -/
inductive Fault where
  | invalid (field : Field) (value : Datum)
  | missing (path : Path)
  | malformed (path : Path)
  | notMapping (path : Path)
  | unknown (name : String)
  | misfit (misfit : Misfit)
  | file (error : FileError)
  | value (fault : Yaml.ValueFault)

/-- Whether a fault is reported as one of the configuration. -/
def Fault.isReported : Fault → Bool
  | .invalid .. | .missing _ | .malformed _ | .notMapping _ | .unknown _ => true
  | .misfit _ | .file _ | .value _ => false

def Misfit.message : Misfit → String
  | .notNumber => ""
  | .infinite => "cannot convert float infinity to integer"
  | .huge => "int too large to convert to float"
  | .unwritable => Text.WriteError.tooLong.message

def Fault.message : Fault → String
  | .invalid field datum => field.name ++ " の値が不正です: " ++ datum.inner
  | .missing path => "設定ファイルが見つかりません: " ++ path.text
  | .malformed path => "設定ファイルの YAML が不正です: " ++ path.text
  | .notMapping path =>
    "設定ファイルのトップレベルはマッピングである必要があります: " ++ path.text
  | .unknown key => "未知の設定項目です: " ++ key
  | .misfit m => m.message
  | .file e => e.message
  | .value fault => fault.message

/-- The fault of a datum that does not become the value of a field. -/
def faultOf (f : Field) (d : Datum) : Misfit → Fault
  | .notNumber => if d.isUnwritable then .misfit .unwritable else .invalid f d
  | m => .misfit m

/-- Gives a field the value that a datum becomes. -/
def set (c : Config) (f : Field) (d : Datum) : Except Fault Config :=
  match convert f.kind d with
  | .ok v => .ok (c.put f v)
  | .error m => .error (faultOf f d m)

end Config

end BrowserSteps
