import CodeSearch.Fault
/-!
# Taking values apart

Data that was read from outside may have any shape. Each way of taking a value apart says which shapes
it takes and which fault it gives for the others.
-/

namespace CodeSearch.Json

/-- A field of an object, if it is there. A value that is no object has no fields to ask for. -/
def field? (value : Json) (name : String) : Except Fault (Option Json) :=
  match value with
  | .obj fields => .ok (Fields.get? fields name)
  | _ => .error .missingMember

/-- A field that must be there. -/
def item (value : Json) (name : String) : Except Fault Json :=
  match value with
  | .obj fields =>
    match Fields.get? fields name with
    | some found => .ok found
    | none => .error .missingKey
  | _ => .error .wrongType

/-- The fields of an object. -/
def fields (value : Json) : Except Fault Fields :=
  match value with
  | .obj fields => .ok fields
  | _ => .error .missingMember

/-- A record that has no fields but some. -/
def Fields.only (fields : Fields) (names : List String) : Except Fault Unit :=
  if fields.all fun (name, _) => names.contains name then .ok () else .error .wrongType

/-- The text that a value is. -/
def toText : Json → Except Fault String
  | .str s => .ok s
  | _ => .error .wrongType

/-- The number that a value is: an integer, a truth value or a double. A text is none. -/
def toNumber : Json → Except Fault Json
  | .int n => .ok (.int n)
  | .bool b => .ok (.bool b)
  | .float x => .ok (.float x)
  | _ => .error .wrongType

/-- The integer that a value is. A truth value is one, but no double is. -/
def toSize : Json → Except Fault Int
  | .int n => .ok n
  | .bool b => .ok (if b then 1 else 0)
  | _ => .error .wrongType

/-- The elements of a value: the items of a list, the characters of a text, the names of an object. -/
def elements : Json → Except Fault (List Json)
  | .arr items => .ok items
  | .str s => .ok ((Text.codes s.toList).map fun code => .str (Text.ofCodes [code]))
  | .obj fields => .ok (fields.map fun (name, _) => .str name)
  | _ => .error .wrongType

/-- A value may name an entry unless it is a list or an object. -/
def isName : Json → Bool
  | .arr _ | .obj _ => false
  | _ => true

/-- A value that differs even from itself. -/
def isNoNumber : Json → Bool
  | .float x => x.isNaN
  | _ => false

/-- The name of a value that is no text. -/
def markedName (value : Json) : String := String.ofList (Text.mark :: chars {} 0 value.whole)

/-- The name that a value is looked up by. A text is its own name, and numbers that are equal have one name; a
list or an object can name nothing. What differs from itself finds nothing, and so its name has a blank more
than that of any entry. -/
def entryName : Json → Except Fault String
  | .str s => .ok s
  | .arr _ | .obj _ => .error .wrongType
  | value => .ok (if value.isNoNumber then value.markedName ++ " " else value.markedName)

/-- The value that stands under a name. -/
def ofEntryName (name : String) : Json :=
  match name.toList with
  | c :: rest =>
    if c = Text.mark then
      match parse (String.ofList rest) with
      | .ok value => value
      | .error _ => .str name
    else .str name
  | [] => .str name

/-- A name is that of a text. -/
def namesText (name : String) : Bool :=
  match ofEntryName name with
  | .str _ => true
  | _ => false

/-- Set the fields that a list of pairs names, one after the other. A pair is any value of two
elements; a name that is no text makes no field. -/
def setPairs : Fields → List Json → Except Fault Fields
  | before, [] => .ok before
  | before, pair :: rest => do
    match ← pair.elements with
    | [name, value] =>
      if !name.isName then throw .wrongType
      match name with
      | .str name => setPairs (before.set name value) rest
      | _ => setPairs before rest
    | _ => throw (.badValue .other)

/-- The record that a value makes: an object's fields, or those that its pairs give. -/
def toRecord : Json → Except Fault Fields
  | .obj fields => .ok fields
  | value => do setPairs [] (← value.elements)

/-- The integer that a value stands for: whole numbers, truth values, digits, or the integer part of a
double. -/
def toInteger : Json → Except Fault Int
  | .int n => .ok n
  | .bool b => .ok (if b then 1 else 0)
  | .float x => (Decimal.truncate x).mapError Fault.ofNotFinite
  | .str s =>
    match Decimal.readInt s with
    | .ok n => .ok n
    | .error .unreadable => .error (.badValue (.unreadableInteger s))
    | .error (.tooLong digits) => .error (.badValue (.longInteger digits))
  | _ => .error .wrongType

/-- The double that a value stands for. -/
def toDouble : Json → Except Fault Float
  | .int n =>
    let x := Decimal.ofInt n
    if x.isInf then .error .overflow else .ok x
  | .bool b => .ok (if b then 1 else 0)
  | .float x => .ok x
  | .str s =>
    match Decimal.readDouble? s with
    | some x => .ok x
    | none => .error (.badValue (.unreadableDouble s))
  | _ => .error .wrongType

/-- The double that a number is. -/
def toWeight (value : Json) : Except Fault Float := do (← value.toNumber).toDouble

/-- What a field gives, or what is usual where it is left out. -/
def Fields.given {α : Type} (fields : Fields) (name : String) (usual : α)
    (read : Json → Except Fault α) : Except Fault α :=
  match fields.get? name with
  | some value => read value
  | none => .ok usual

end CodeSearch.Json
