/-
**Two ways to show a value.**

*Dump mode* is verbose: one line per part, with types, lengths, capacities and addresses.  *Compact
mode* puts the whole value on one line and adds types and details on request.  Both take the same
walk through the graph; this module holds what they write on the way: headers, brackets,
separators, labels and the ends of chains.

Main definitions:

* `ValueLens.Mode` — dump or compact;
* `ValueLens.Mode.header`, `ValueLens.Mode.invalid` — what stands in front of a value, or for it;
* `ValueLens.Mode.nest` — the brackets of a container, or the mark of the depth limit;
* `ValueLens.Mode.list` — the parts of a container with what divides them;
* `ValueLens.Mode.chainHeader` — what stands in front of the end of a chain.
-/
import ValueLens.Render.Chain
import ValueLens.Render.Hook

set_option relaxedAutoImplicit false
set_option autoImplicit false

namespace ValueLens

/-- **How a value is shown.**  In compact mode `types` adds type names and field names, `details`
adds field names and addresses. -/
inductive Mode where
  | dump
  | compact (types details : Bool)
  deriving DecidableEq, Repr

namespace Mode

/-! ### Values -/

/-- The indentation of the current depth, unless something stands on the line already. -/
def indent (c : Config) : Render Unit := do
  let st ← get
  if st.skipIndent then set { st with skipIndent := false }
  else Render.write (String.join (List.replicate st.depth c.indent))

/-- The length and the capacity of a value in parentheses.  What is zero is left out, a length that
is `always` shown apart. -/
def lengths (c : Config) (length capacity : Nat) (always : Bool) : String :=
  let parts :=
    (if length != 0 || always then ["len=" ++ Numeral.decimal length] else [])
      ++ (if !c.disableCapacities && capacity != 0 then ["cap=" ++ Numeral.decimal capacity]
          else [])
  if parts.isEmpty then "" else "(" ++ " ".intercalate parts ++ ") "

/-- The lengths of a shape.  The length of a text is counted in bytes. -/
def lengthsOf (c : Config) : Shape → String
  | .array q => lengths c q.items.length q.capacity false
  | .slice (some q) => lengths c q.items.length q.capacity false
  | .map (some entries) => lengths c entries.length 0 true
  | .text t => lengths c t.utf8ByteSize 0 false
  | _ => ""

/-- **What stands in front of a value**: its type unless that is suppressed, and in a dump the
indentation before and the lengths after. -/
def header (s : Scene) (n : Node) : Mode → Render Unit
  | .dump => do
      if !(← get).skipType then
        indent s.config
        Render.write ("(" ++ n.typeName ++ ") ")
      Render.setSkipType false
      Render.write (lengthsOf s.config n.shape)
  | .compact types _ => do
      if !(← get).skipType && types then
        Render.write ("(" ++ n.typeName ++ ")")
      Render.setSkipType false

/-- What stands for an invalid value. -/
def invalidMark : String := "<invalid>"

/-- What stands for nothing. -/
def nilMark : String := "<nil>"

/-- **An invalid value.**  Compact mode leaves the suppression of the next type name as it is. -/
def invalid (c : Config) : Mode → Render Unit
  | .dump => do
      if !(← get).skipType then indent c
      Render.setSkipType false
      Render.write invalidMark
  | .compact _ _ => Render.write invalidMark

/-- A text is quoted in a dump. -/
def text (t : String) : Mode → String
  | .dump => Text.quoted t
  | .compact _ _ => t

/-! ### Containers -/

/-- The kinds of containers, which compact mode tells apart by their brackets. -/
inductive Bracket where
  | sequence
  | map
  | record
  deriving DecidableEq, Repr

/-- The opening bracket of compact mode. -/
def Bracket.opening : Bracket → String
  | .sequence => "["
  | .map => "map["
  | .record => "\x7b"

/-- The closing bracket of compact mode. -/
def Bracket.closing : Bracket → String
  | .sequence => "]"
  | .map => "]"
  | .record => "\x7d"

/-- One nesting level deeper. -/
def deeper (inside : Render Unit) : Render Unit := do
  modify fun st => { st with depth := st.depth + 1 }
  inside
  modify fun st => { st with depth := st.depth - 1 }

/-- **A container**: brackets around what is inside, or the mark of the depth limit, which stands
in place of the brackets in a dump and between them in compact mode. -/
def nest (s : Scene) (id : NodeId) (bracket : Bracket) (inside : Render Unit) :
    Mode → Render Unit
  | .dump => do
      if s.config.atLimit (← get).depth then
        Render.log .trace ("Depth limit " ++ Numeral.decimal s.config.maxDepth ++ " reached")
        Render.step (.cut id)
        Render.write "<max depth reached>"
      else
        Render.step (.entered id)
        Render.write "\x7b\n"
        deeper inside
        indent s.config
        Render.write "\x7d"
  | .compact _ _ => do
      Render.write bracket.opening
      if s.config.atLimit (← get).depth then
        Render.step (.cut id)
        Render.write "<max>"
      else
        Render.step (.entered id)
        deeper inside
      Render.write bracket.closing

/-- What stands between two parts of a container. -/
def divider : Mode → String
  | .dump => ",\n"
  | .compact _ _ => " "

/-- What stands after the last part of a container. -/
def terminator : Mode → String
  | .dump => "\n"
  | .compact _ _ => ""

/-- **The parts of a container** with what divides them. -/
def list {α : Type} (mode : Mode) (part : α → Render Unit) : List α → Render Unit
  | [] => pure ()
  | [x] => do
      part x
      Render.write mode.terminator
  | x :: y :: rest => do
      part x
      Render.write mode.divider
      list mode part (y :: rest)

/-- The label of a field.  In a dump it starts the line on which the value goes on. -/
def label (c : Config) (name : String) : Mode → Render Unit
  | .dump => do
      indent c
      Render.write (name ++ ": ")
      Render.setSkipIndent true
  | .compact types details => if details || types then Render.write (name ++ ":") else pure ()

/-- What stands between a key and its value, which go on one line. -/
def keyMark : Mode → Render Unit
  | .dump => do
      Render.write ": "
      Render.setSkipIndent true
  | .compact _ _ => Render.write ":"

/-- Prepares for a part of a sequence or map: compact mode leaves out its type, because the type of
the container tells it. -/
def beginPart : Mode → Render Unit
  | .dump => pure ()
  | .compact _ _ => Render.setSkipType true

/-- Prepares for a nested value: in compact mode a dynamic holder brings the type of what it holds
back into view. -/
def beginNested (shape : Shape) : Mode → Render Unit
  | .dump => pure ()
  | .compact _ _ => if shape.isHolder then Render.setSkipType false else pure ()

/-! ### Chains of indirections -/

/-- Prepares for a chain.  Compact mode shows a nil pointer whose type is not wanted without walking
the chain, and then the answer is false. -/
def beginChain (c : Config) (shape : Shape) : Mode → Render Bool
  | .dump => do
      indent c
      pure true
  | .compact types _ => do
      match shape with
      | .pointer _ none =>
          if !types || (← get).skipType then
            Render.setSkipType false
            Render.step (.ended .nil)
            Render.write nilMark
            pure false
          else pure true
      | _ => pure true

/-- The addresses of a chain in parentheses. -/
def addresses (as : List Address) : String :=
  if as.isEmpty then ""
  else "(" ++ "->".intercalate (as.map (Scalar.address Scalar.addressWidth)) ++ ")"

/-- A row of stars. -/
def stars (n : Nat) : String := "".pushn '*' n

/-- The type at the end of a chain, one star for each level. -/
def chainType (g : Graph) (chain : Chain) : Link → String
  | .nil typeName _ => stars chain.indirects ++ typeName
  | .unreachable typeName => stars chain.indirects ++ typeName
  | .cycle typeName isPointer _ => stars (chain.indirects + isPointer.toNat) ++ typeName
  | .value id => stars chain.indirects ++ g.typeName id

/-- The stars of a chain whose type is not shown; here a nil pointer counts as a level too. -/
def chainStars (chain : Chain) : Link → String
  | .nil _ isPointer => stars (chain.indirects + isPointer.toNat)
  | .cycle _ isPointer _ => stars (chain.indirects + isPointer.toNat)
  | .unreachable _ => stars chain.indirects
  | .value _ => stars chain.indirects

/-- **What stands in front of the end of a chain.** -/
def chainHeader (s : Scene) (chain : Chain) (link : Link) : Mode → Render Unit
  | .dump => do
      Render.write ("(" ++ chainType s.graph chain link ++ ")")
      if !s.config.disablePointerAddresses then Render.write (addresses chain.addresses)
      Render.write "("
  | .compact types details => do
      if types && !(← get).skipType then
        Render.write ("(" ++ chainType s.graph chain link ++ ")")
      else
        Render.write ("<" ++ chainStars chain link ++ ">")
      if details then Render.write (addresses chain.addresses)

/-- What stands for a chain that ended without a value. -/
def endingMark (ending : Ending) (mode : Mode) : String :=
  match ending, mode with
  | .nil, _ => nilMark
  | .cycle _, .dump => "<already shown>"
  | .cycle _, .compact _ _ => "<shown>"
  | .unreachable, _ => invalidMark

/-- What stands after the end of a chain. -/
def chainFooter : Mode → Render Unit
  | .dump => Render.write ")"
  | .compact _ _ => pure ()

end Mode

end ValueLens
