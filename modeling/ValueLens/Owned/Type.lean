/-
**Types of owned values.**

A type is a scalar, a text, a container, an indirection, a cell or a record, and its name is spelled
from the names of its parts without the paths to them.

Main definitions:

* `ValueLens.Ty` — the types;
* `ValueLens.Ty.name` — the name of a type;
* `ValueLens.Ty.ownName` — the name that its values give it;
* `ValueLens.Ty.isZeroSized` — whether the values of a type take no room;
* `ValueLens.Ty.read?` — the type of a name.
-/
import ValueLens.Binary
import ValueLens.Numeral
import ValueLens.TypeName

set_option relaxedAutoImplicit false
set_option autoImplicit false

namespace ValueLens

/-! ### Kinds -/

/-- How wide an integer is. -/
inductive IntWidth where
  | w8
  | w16
  | w32
  | w64
  /-- As wide as an address. -/
  | size
  deriving DecidableEq, Repr

namespace IntWidth

/-- The width in bits. -/
def bits : IntWidth → Nat
  | .w8 => 8
  | .w16 => 16
  | .w32 => 32
  | .w64 => 64
  | .size => 64

/-- The width in a type name. -/
def suffix : IntWidth → String
  | .size => "size"
  | w => Numeral.decimal w.bits

end IntWidth

/-- Who owns what an indirection leads to. -/
inductive Owner where
  /-- One owner. -/
  | unique
  /-- Several owners of one thread. -/
  | counted
  /-- Several owners of any thread. -/
  | atomic
  deriving DecidableEq, Repr

/-- The name of a kind of owner. -/
def Owner.name : Owner → String
  | .unique => "Box"
  | .counted => "Rc"
  | .atomic => "Arc"

/-- The cells that must be acquired before they can be read. -/
inductive LockKind where
  | refCell
  | mutex
  | rwLock
  deriving DecidableEq, Repr

/-- The name of a kind of lock. -/
def LockKind.name : LockKind → String
  | .refCell => "RefCell"
  | .mutex => "Mutex"
  | .rwLock => "RwLock"

/-- **A type.** -/
inductive Ty where
  | bool
  | char
  /-- A text that owns its characters. -/
  | string
  /-- Borrowed characters. -/
  | str
  /-- Characters that are owned or borrowed. -/
  | cow
  | unit
  | int (width : IntWidth)
  | uint (width : IntWidth)
  | float (width : FloatWidth)
  | complex (width : FloatWidth)
  /-- A document of objects and arrays. -/
  | document
  /-- A type that is known by its name only. -/
  | named (name : String)
  /-- Any type with certain capabilities. -/
  | dynamic (bounds : List String)
  | reference (mutable : Bool) (target : Ty)
  /-- An address that is not followed. -/
  | raw (mutable : Bool) (target : Ty)
  | owner (kind : Owner) (target : Ty)
  /-- An indirection that does not keep its target alive. -/
  | weak (target : Ty)
  /-- A cell whose content is copied out. -/
  | cell (content : Ty)
  | lock (kind : LockKind) (content : Ty)
  | option (content : Ty)
  | slice (item : Ty)
  | array (item : Ty) (length : Nat)
  | vec (item : Ty)
  | deque (item : Ty)
  | set (ordered : Bool) (item : Ty)
  | map (ordered : Bool) (key value : Ty)
  | tuple (items : List Ty)
  deriving Repr, Inhabited

namespace Ty

/-! ### Names -/

/-- A name with its arguments in angle brackets. -/
def applied (name : String) (arguments : List String) : String :=
  name ++ "<" ++ ", ".intercalate arguments ++ ">"

/-- The names of the items of a tuple in parentheses; a single one is followed by a comma. -/
def parenthesized : List String → String
  | [name] => "(" ++ name ++ ",)"
  | names => "(" ++ ", ".intercalate names ++ ")"

mutual

/-- **The name of a type.** -/
def name : Ty → String
  | .bool => "bool"
  | .char => "char"
  | .string => "String"
  | .str => "str"
  | .cow => "Cow<'_, str>"
  | .unit => "()"
  | .int w => "i" ++ w.suffix
  | .uint w => "u" ++ w.suffix
  | .float w => "f" ++ Numeral.decimal w.bits
  | .complex w => "Complex" ++ Numeral.decimal w.bits
  | .document => "Value"
  | .named name => name
  | .dynamic bounds => "dyn " ++ " + ".intercalate bounds
  | .reference true t => "&mut " ++ t.name
  | .reference false t => "&" ++ t.name
  | .raw true t => "*mut " ++ t.name
  | .raw false t => "*const " ++ t.name
  | .owner kind t => applied kind.name [t.name]
  | .weak t => applied "Weak" [t.name]
  | .cell t => applied "Cell" [t.name]
  | .lock kind t => applied kind.name [t.name]
  | .option t => applied "Option" [t.name]
  | .slice t => "[" ++ t.name ++ "]"
  | .array t n => "[" ++ t.name ++ "; " ++ Numeral.decimal n ++ "]"
  | .vec t => applied "Vec" [t.name]
  | .deque t => applied "VecDeque" [t.name]
  | .set true t => applied "BTreeSet" [t.name]
  | .set false t => applied "HashSet" [t.name]
  | .map true k v => applied "BTreeMap" [k.name, v.name]
  | .map false k v => applied "HashMap" [k.name, v.name]
  | .tuple ts => parenthesized (names ts)

/-- The names of several types. -/
def names : List Ty → List String
  | [] => []
  | t :: rest => t.name :: names rest

end

/-- What a value of a type calls its type.  Characters that are owned or borrowed leave out how long
they are borrowed. -/
def ownName : Ty → String
  | .cow => "Cow<str>"
  | t => t.name

/-! ### Sizes -/

mutual

/-- **Whether the values of a type take no room.** -/
def isZeroSized : Ty → Bool
  | .unit => true
  | .cell t => t.isZeroSized
  | .array t n => n == 0 || t.isZeroSized
  | .tuple ts => allZeroSized ts
  | _ => false

/-- Whether this is so of several types. -/
def allZeroSized : List Ty → Bool
  | [] => true
  | t :: rest => t.isZeroSized && allZeroSized rest

end

/-! ### Reading names -/

/-- The type of a name and its arguments. -/
def ofPath? (name : String) (arguments : List Ty) : Option Ty :=
  match name, arguments with
  | "bool", [] => some .bool
  | "char", [] => some .char
  | "str", [] => some .str
  | "String", [] => some .string
  | "i8", [] => some (.int .w8)
  | "i16", [] => some (.int .w16)
  | "i32", [] => some (.int .w32)
  | "i64", [] => some (.int .w64)
  | "isize", [] => some (.int .size)
  | "u8", [] => some (.uint .w8)
  | "u16", [] => some (.uint .w16)
  | "u32", [] => some (.uint .w32)
  | "u64", [] => some (.uint .w64)
  | "usize", [] => some (.uint .size)
  | "f32", [] => some (.float .single)
  | "f64", [] => some (.float .double)
  | "Complex32", [] => some (.complex .single)
  | "Complex64", [] => some (.complex .double)
  | "json", [] => some .document
  | name, [] => some (.named name)
  | "Cow", [.str] => some .cow
  | "Box", [t] => some (.owner .unique t)
  | "Rc", [t] => some (.owner .counted t)
  | "Arc", [t] => some (.owner .atomic t)
  | "Weak", [t] => some (.weak t)
  | "Cell", [t] => some (.cell t)
  | "RefCell", [t] => some (.lock .refCell t)
  | "Mutex", [t] => some (.lock .mutex t)
  | "RwLock", [t] => some (.lock .rwLock t)
  | "Option", [t] => some (.option t)
  | "Vec", [t] => some (.vec t)
  | "VecDeque", [t] => some (.deque t)
  | "BTreeSet", [t] => some (.set true t)
  | "HashSet", [t] => some (.set false t)
  | "BTreeMap", [k, v] => some (.map true k v)
  | "HashMap", [k, v] => some (.map false k v)
  | _, _ => none

/-- The text after its spaces. -/
def trimmed (cs : List Char) : List Char :=
  cs.dropWhile (· == ' ')

/-- The word at the front of a text, and the rest. -/
def wordAt (cs : List Char) : String × List Char :=
  (String.ofList (cs.takeWhile TypeName.isWordChar), cs.dropWhile TypeName.isWordChar)

/-- The last step of a path at the front of a text, and the rest. -/
def pathAt? : Nat → List Char → Option (String × List Char)
  | 0, _ => none
  | fuel + 1, cs =>
      match wordAt cs with
      | ("", _) => none
      | (_, ':' :: ':' :: rest) => pathAt? fuel rest
      | (word, rest) => some (word, rest)

/-- Paths joined by plus signs. -/
def boundsAt? : Nat → List Char → Option (List String × List Char)
  | 0, _ => none
  | fuel + 1, cs => do
      let (bound, rest) ← pathAt? (cs.length + 1) (trimmed cs)
      match trimmed rest with
      | '+' :: rest =>
          let (bounds, rest) ← boundsAt? fuel rest
          pure (bound :: bounds, rest)
      | _ => pure ([bound], rest)

mutual

/-- The type at the front of a text, and the rest. -/
def at? : Nat → List Char → Option (Ty × List Char)
  | 0, _ => none
  | fuel + 1, cs =>
      match trimmed cs with
      | '&' :: 'm' :: 'u' :: 't' :: ' ' :: rest => do
          let (t, rest) ← at? fuel rest
          pure (.reference true t, rest)
      | '&' :: rest => do
          let (t, rest) ← at? fuel rest
          pure (.reference false t, rest)
      | '*' :: rest => do
          let (word, rest) := wordAt rest
          let (t, rest) ← at? fuel rest
          if word == "mut" then pure (.raw true t, rest)
          else if word == "const" then pure (.raw false t, rest)
          else none
      | '[' :: rest => do
          let (t, rest) ← at? fuel rest
          match trimmed rest with
          | ']' :: rest => pure (.slice t, rest)
          | ';' :: rest =>
              let digits := (trimmed rest).takeWhile Char.isDigit
              let n ← Numeral.read? 10 digits
              match (trimmed rest).drop digits.length with
              | ']' :: rest => pure (.array t n, rest)
              | _ => none
          | _ => none
      | '(' :: rest => do
          let (ts, rest) ← listAt? fuel ')' rest
          pure (if ts.isEmpty then .unit else .tuple ts, rest)
      | cs => do
          let (word, rest) ← pathAt? (cs.length + 1) cs
          if word == "dyn" then
            let (bounds, rest) ← boundsAt? (cs.length + 1) rest
            pure (.dynamic bounds, rest)
          else
            match rest with
            | '<' :: rest =>
                let (ts, rest) ← listAt? fuel '>' rest
                pure (← ofPath? word ts, rest)
            | _ => pure (← ofPath? word [], rest)

/-- Types divided by commas, up to a closing character; the last may be followed by a comma. -/
def listAt? : Nat → Char → List Char → Option (List Ty × List Char)
  | 0, _, _ => none
  | fuel + 1, close, cs =>
      match trimmed cs with
      | [] => none
      | c :: rest =>
          if c = close then some ([], rest)
          else do
            let (t, rest) ← at? fuel (c :: rest)
            match trimmed rest with
            | ',' :: rest =>
                let (ts, rest) ← listAt? fuel close rest
                pure (t :: ts, rest)
            | d :: rest => if d = close then pure ([t], rest) else none
            | [] => none

end

/-- **The type of a name.** -/
def read? (text : String) : Option Ty :=
  match at? (2 * text.length + 1) text.toList with
  | some (t, rest) => if (trimmed rest).isEmpty then some t else none
  | none => none

end Ty

end ValueLens
