import AccessChecks.Code.Runtime
import AccessChecks.Text.Split

/-!
# Options

## Entries

Options are given as a text of entries separated by commas.  An entry is a key and
a value on the two sides of the first equals sign; blanks around either do not
count, and blank entries say nothing.

## Faults

The first faulty entry decides the error.  Within an entry a missing sign comes
before a missing value, and that before an unknown key or an unreadable path.
-/

namespace AccessChecks

inductive OptionError where
  | unknownOption (key : String)
  | malformed (entry : String)
  | invalidRuntimePath (value source : String)
  | emptyValue (key : String)
deriving DecidableEq, Repr, Inhabited

namespace OptionError

def message : OptionError → String
  | unknownOption key => "unknown option `" ++ key ++ "`"
  | malformed entry =>
      "malformed option `" ++ entry ++ "`, expected `key=value`"
  | invalidRuntimePath value source =>
      "runtime_crate `" ++ value ++ "` is not a Rust path: " ++ source
  | emptyValue key => "option `" ++ key ++ "` needs a value"

end OptionError

structure Options where
  runtime : RuntimePath := .names ⟨true, ["permit_core"]⟩
  fileSuffix : String := "_permit.rs"
  annotations : String := "permit.v1"

namespace Options

def withRuntime (reader : RuntimeReader) (o : Options) (path : String) :
    Except OptionError Options :=
  match reader path with
  | .ok runtime => .ok { o with runtime := runtime }
  | .error source => .error (.invalidRuntimePath path source)

def withFileSuffix (o : Options) (suffix : String) : Options :=
  { o with fileSuffix := suffix }

/-- Sets the package of the annotations.  Dots in front of it do not count. -/
def withAnnotations (o : Options) (package : String) : Options :=
  { o with
    annotations := String.ofList (package.toList.dropWhile fun c => c == '.') }

def set (reader : RuntimeReader) (o : Options) (key value : String) :
    Except OptionError Options :=
  if key = "runtime_crate" then o.withRuntime reader value
  else if key = "file_suffix" then .ok (o.withFileSuffix value)
  else if key = "annotations" then .ok (o.withAnnotations value)
  else .error (.unknownOption key)

def applyEntry (reader : RuntimeReader) (o : Options) (entry : List Char) :
    Except OptionError Options :=
  match Split.first? '=' entry with
  | none => .error (.malformed (String.ofList entry))
  | some (left, right) =>
      let key := String.ofList (Split.trim left)
      let value := String.ofList (Split.trim right)
      if value.isEmpty then .error (.emptyValue key) else o.set reader key value

def entries (parameter : String) : List (List Char) :=
  ((Split.every ',' parameter.toList).map Split.trim).filter fun entry =>
    !entry.isEmpty

def ofParameter (reader : RuntimeReader) (parameter : String) :
    Except OptionError Options :=
  (entries parameter).foldlM (applyEntry reader) {}

end Options

end AccessChecks
