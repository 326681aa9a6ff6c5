/-!
# JSON texts

## Values

A JSON value keeps the spelling of its numbers and texts, so that reading a value
and writing it give back the same text up to white space.  What a spelling means
is decided where it is used.

## Writing

Values are written without any white space.
-/

namespace AccessChecks

inductive Json where
  | null
  | bool (b : Bool)
  | number (spelling : List Char)
  | text (spelling : List Char)
  | array (items : List Json)
  | object (members : List (List Char × Json))
deriving Repr, Inhabited

namespace Json

mutual

def write : Json → List Char
  | null => "null".toList
  | bool true => "true".toList
  | bool false => "false".toList
  | number spelling => spelling
  | text spelling => '"' :: spelling ++ ['"']
  | array [] => ['[', ']']
  | array (item :: rest) => '[' :: item.write ++ writeItems rest
  | object [] => ['\x7b', '\x7d']
  | object ((key, value) :: rest) =>
      '\x7b' :: '"' :: key ++ '"' :: ':' :: value.write ++ writeMembers rest

def writeItems : List Json → List Char
  | [] => [']']
  | item :: rest => ',' :: item.write ++ writeItems rest

def writeMembers : List (List Char × Json) → List Char
  | [] => ['\x7d']
  | (key, value) :: rest =>
      ',' :: '"' :: key ++ '"' :: ':' :: value.write ++ writeMembers rest

end

end Json

end AccessChecks
