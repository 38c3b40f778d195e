/-
**The forms of a level.**

A level of the walk shows its value in one of a few forms: in place of a full holder what it holds,
a mark, a chain of indirections, a text, or a container with its parts.  Which one it is depends on
the shape of the value and on the configuration.  Whoever proves something about levels goes through
the forms; this module alone opens the level and the structure of a value.

Main definitions:

* `ValueLens.Walk.front` — what a value shows in front of its structure;
* `ValueLens.Walk.Form`, `ValueLens.Walk.form` — the form in which a level shows its value;
* `ValueLens.Walk.Form.shown` — what a form shows;
* `ValueLens.Walk.contents` — what a container shows inside of its brackets;
* `ValueLens.Walk.arrive` — what stands at the end of a chain.

Main results:

* `ValueLens.Walk.level_eq_shown` — **a level shows the form of its value**;
* `ValueLens.Walk.level_of_bracket`, `ValueLens.Walk.exists_level_of_leaf` — a level at a container
  and at a leaf;
* `ValueLens.Walk.level_cases` — the four ways of a level.
-/
import ValueLens.Render.Walk

set_option relaxedAutoImplicit false
set_option autoImplicit false

namespace ValueLens

/-- The brackets of a container that is not nil. -/
def Shape.bracket? : Shape → Option Mode.Bracket
  | .array _ => some .sequence
  | .slice (some _) => some .sequence
  | .map (some _) => some .map
  | .record _ => some .record
  | _ => none

/-- A scalar or a text. -/
def Shape.isLeaf : Shape → Bool
  | .bool _ => true
  | .int _ _ => true
  | .uint _ _ => true
  | .float _ _ => true
  | .complex _ _ _ => true
  | .text _ => true
  | _ => false

namespace Walk

/-- What a value that is no indirection shows in front of its structure, and whether that stands in
for it. -/
def front (s : Scene) (mode : Mode) (id : NodeId) : Render Bool := do
  mode.header s (s.graph.node id)
  let (answer, standsIn) ← ask s (s.graph.node id)
  Render.step (.visited id answer)
  pure standsIn

/-! ### Forms -/

/-- **The form in which a level shows its value.** -/
inductive Form where
  /-- In place of the value, what it holds. -/
  | held (content : NodeId)
  | invalid
  /-- A chain of indirections. -/
  | chain
  | leaf (text : Mode → String)
  | sequence (q : Sequence)
  | map (es : List Entry)
  | record (fds : List Field)

/-- The form of a shape. -/
def formOf (c : Config) : Shape → Form
  | .holder (some content) => .held content
  | .invalid => .invalid
  | .pointer _ _ => .chain
  | .guarded a _ _ =>
      if c.disableGuardResolution then .leaf fun _ => Scalar.address Scalar.addressWidth a
      else .chain
  | .array q => .sequence q
  | .slice (some q) => .sequence q
  | .map (some es) => .map es
  | .record fds => .record fds
  | .bool b => .leaf fun _ => Scalar.bool b
  | .int v _ => .leaf fun _ => Scalar.int 10 v
  | .uint v _ => .leaf fun _ => Scalar.uint 10 v
  | .float v w => .leaf fun _ => Scalar.float v w
  | .complex re im w => .leaf fun _ => Scalar.complex re im w
  | .text t => .leaf (Mode.text t)
  | .handle a => .leaf fun _ => Scalar.address Scalar.addressWidth a
  | .slice none => .leaf fun _ => Mode.nilMark
  | .map none => .leaf fun _ => Mode.nilMark
  | .holder none => .leaf fun _ => Mode.nilMark

/-- **The form of a value.** -/
def form (s : Scene) (id : NodeId) : Form := formOf s.config (s.graph.shape id)

/-! #### The shapes behind the forms -/

section Shapes

variable {s : Scene} {id : NodeId}

theorem shape_of_held {content : NodeId} (h : form s id = .held content) :
    s.graph.shape id = .holder (some content) := by
  unfold form formOf at h
  split at h <;> try split at h
  all_goals simp_all

theorem shape_of_sequence {q : Sequence} (h : form s id = .sequence q) :
    s.graph.shape id = .array q ∨ s.graph.shape id = .slice (some q) := by
  unfold form formOf at h
  split at h <;> try split at h
  all_goals simp_all

theorem shape_of_map {es : List Entry} (h : form s id = .map es) :
    s.graph.shape id = .map (some es) := by
  unfold form formOf at h
  split at h <;> try split at h
  all_goals simp_all

theorem shape_of_record {fds : List Field} (h : form s id = .record fds) :
    s.graph.shape id = .record fds := by
  unfold form formOf at h
  split at h <;> try split at h
  all_goals simp_all

theorem shape_of_invalid (h : form s id = .invalid) : s.graph.shape id = .invalid := by
  unfold form formOf at h
  split at h <;> try split at h
  all_goals simp_all

theorem form_eq_chain_iff :
    form s id = .chain ↔ (s.graph.shape id).isIndirection s.config = true := by
  unfold form formOf
  split <;> try split
  all_goals simp_all [Shape.isIndirection]

end Shapes

/-- An indirection that is shown. -/
def indirection (s : Scene) (visit : Visit) (mode : Mode) (id : NodeId) : Render Unit := do
  if ← mode.beginChain s.config (s.graph.shape id) then follow s visit mode id

/-- A value that shows its front, and then its structure unless the front stands in for it. -/
def fronted (s : Scene) (mode : Mode) (id : NodeId) (inner : Render Unit) : Render Unit := do
  if ← front s mode id then pure () else inner

/-- **What a form shows.** -/
def Form.shown (s : Scene) (texts : Texts) (visit : Visit) (mode : Mode) (id : NodeId) :
    Form → Render Unit
  | .held content => visit mode content
  | .invalid => do
      Render.step (.visited id .notAsked)
      mode.invalid s.config
  | .chain => indirection s visit mode id
  | .leaf text => fronted s mode id (Render.write (text mode))
  | .sequence q => fronted s mode id (mode.nest s id .sequence (elements s visit mode q))
  | .map es => fronted s mode id (mode.nest s id .map (entries s texts visit mode es))
  | .record fds =>
      fronted s mode id (mode.nest s id .record (mode.list (field s visit mode) fds))

section Levels

variable (s : Scene) (texts : Texts) (visit : Visit) (mode : Mode) (id : NodeId)

theorem value_eq_fronted : value s texts visit mode id =
    fronted s mode id (structural s texts visit mode id (s.graph.shape id)) := by
  simp only [value, fronted, front, bind_assoc, pure_bind, Graph.shape]

/-- **A level shows the form of its value.** -/
theorem level_eq_shown :
    level s texts visit mode id = (form s id).shown s texts visit mode id := by
  have hvalue := value_eq_fronted s texts visit mode id
  simp only [level, form]
  cases hs : s.graph.shape id with
  | holder content =>
      cases content with
      | none => rwa [hs] at hvalue
      | some content => rfl
  | guarded a content lock =>
      cases hd : s.config.disableGuardResolution with
      | true =>
          rw [hs] at hvalue
          simpa [hd, formOf, Shape.isIndirection, Form.shown, structural] using hvalue
      | false => simp [hs, hd, formOf, Shape.isIndirection, Form.shown, indirection]
  | pointer a target => simp [hs, formOf, Shape.isIndirection, Form.shown, indirection]
  | invalid => rfl
  | slice q =>
      cases q with
      | _ => rwa [hs] at hvalue
  | map es =>
      cases es with
      | _ => rwa [hs] at hvalue
  | _ => rwa [hs] at hvalue

/-- **The four ways of a level**: a full holder is seen through, an invalid value is marked, an
indirection starts a chain, and any other value is shown as such. -/
theorem level_cases :
    (∃ content, s.graph.shape id = .holder (some content) ∧
      level s texts visit mode id = visit mode content) ∨
    (s.graph.shape id = .invalid ∧
      level s texts visit mode id = (do
        Render.step (.visited id .notAsked)
        mode.invalid s.config)) ∨
    ((s.graph.shape id).isIndirection s.config = true ∧
      level s texts visit mode id = indirection s visit mode id) ∨
    ((s.graph.shape id).isIndirection s.config = false ∧
      (∀ content, s.graph.shape id ≠ .holder (some content)) ∧
      level s texts visit mode id = value s texts visit mode id) := by
  unfold level indirection
  split
  · next content hs => exact Or.inl ⟨content, hs, rfl⟩
  · next hs => exact Or.inr (Or.inl ⟨hs, rfl⟩)
  · next hholder _ =>
      right; right
      cases hid : (s.graph.shape id).isIndirection s.config with
      | true => exact Or.inl ⟨rfl, by simp⟩
      | false => exact Or.inr ⟨rfl, hholder, by simp⟩

end Levels

/-! ### Containers -/

/-- What a container that is not nil shows inside of its brackets. -/
def contents (s : Scene) (texts : Texts) (visit : Visit) (mode : Mode) : Shape → Render Unit
  | .array q => elements s visit mode q
  | .slice (some q) => elements s visit mode q
  | .map (some es) => entries s texts visit mode es
  | .record fds => mode.list (field s visit mode) fds
  | _ => pure ()

variable {s : Scene} {texts : Texts} {visit : Visit} {mode : Mode} {id : NodeId}

/-- **A container that is not nil** shows its front, and then itself between brackets unless the
front stands in for it. -/
theorem level_of_bracket {bracket : Mode.Bracket}
    (h : (s.graph.shape id).bracket? = some bracket) :
    level s texts visit mode id = fronted s mode id
      (mode.nest s id bracket (contents s texts visit mode (s.graph.shape id))) := by
  rw [level_eq_shown, form]
  generalize s.graph.shape id = shape at h
  cases shape with
  | array q =>
      obtain rfl := Option.some.inj h
      rfl
  | slice q =>
      cases q with
      | none => simp [Shape.bracket?] at h
      | some q =>
          obtain rfl := Option.some.inj h
          rfl
  | map es =>
      cases es with
      | none => simp [Shape.bracket?] at h
      | some es =>
          obtain rfl := Option.some.inj h
          rfl
  | record fds =>
      obtain rfl := Option.some.inj h
      rfl
  | _ => simp [Shape.bracket?] at h

/-- The elements of a sequence with what divides them. -/
def spelled (s : Scene) (visit : Visit) (mode : Mode) (q : Sequence) : Render Unit :=
  mode.list (part s visit mode) q.items

/-- A sequence is spelled out, unless it is dumped as bytes. -/
theorem elements_eq_spelled {q : Sequence} (h : mode = .dump → byteView? s q = none) :
    elements s visit mode q = spelled s visit mode q := by
  cases mode with
  | dump => simp only [elements, h rfl, spelled]
  | compact types details => rfl

theorem elements_of_view {q : Sequence} {bytes : List UInt8} (h : byteView? s q = some bytes) :
    elements s visit .dump q = (do
      Render.write (HexDump.indented s.config.indent (← get).depth bytes)) := by
  simp only [elements, h]

/-! ### Leaves -/

/-- A leaf is no indirection. -/
theorem isIndirection_of_leaf {shape : Shape} (h : shape.isLeaf = true) (c : Config) :
    shape.isIndirection c = false := by
  cases shape with
  | pointer a target => simp [Shape.isLeaf] at h
  | guarded a content lock => simp [Shape.isLeaf] at h
  | _ => rfl

/-- A leaf has the form of a text, under every configuration. -/
theorem exists_formOf_of_leaf {shape : Shape} (hleaf : shape.isLeaf = true) :
    ∃ text : Mode → String, ∀ c, formOf c shape = .leaf text := by
  cases shape with
  | bool b => exact ⟨_, fun _ => rfl⟩
  | int z bits => exact ⟨_, fun _ => rfl⟩
  | uint n bits => exact ⟨_, fun _ => rfl⟩
  | float x w => exact ⟨_, fun _ => rfl⟩
  | complex re im w => exact ⟨_, fun _ => rfl⟩
  | text t => exact ⟨_, fun _ => rfl⟩
  | _ => simp [Shape.isLeaf] at hleaf

/-- A leaf is shown as its front and a text. -/
theorem exists_level_of_leaf (hleaf : (s.graph.shape id).isLeaf = true) :
    ∃ text : Mode → String, ∀ (s' : Scene) (texts : Texts) (visit : Visit) (mode : Mode),
      s'.graph.shape id = s.graph.shape id →
        level s' texts visit mode id = fronted s' mode id (Render.write (text mode)) := by
  obtain ⟨text, htext⟩ := exists_formOf_of_leaf hleaf
  refine ⟨text, fun s' texts visit mode hshape => ?_⟩
  rw [level_eq_shown, form, hshape, htext]
  rfl

/-- **A leaf is shown by its node alone.** -/
theorem level_leaf_congr {texts' : Texts} {visit' : Visit} {g : Graph}
    (hleaf : (s.graph.shape id).isLeaf = true) (hnode : s.graph.node id = g.node id) :
    level s texts visit mode id = level { s with graph := g } texts' visit' mode id := by
  have hfront : front s mode id = front { s with graph := g } mode id := by
    simp only [front, ← hnode]
    cases mode with
    | _ => rfl
  obtain ⟨text, htext⟩ := exists_level_of_leaf hleaf
  rw [htext s texts visit mode rfl,
    htext { s with graph := g } texts' visit' mode (congrArg Node.shape hnode.symm)]
  simp only [fronted, hfront]

/-! ### The ends of chains -/

/-- What stands at the end of a chain. -/
def arrive (visit : Visit) (mode : Mode) (chain : Chain) (link : Link) : Render Unit :=
  match link, link.ending? with
  | .value id, _ => do
      Render.step (.reached id)
      Render.setSkipType true
      Render.holding chain.locks (visit mode id)
  | _, some ending => do
      Render.step (.ended ending)
      Render.write (mode.endingMark ending)
  | _, none => pure ()

theorem finish_eq_arrive (s : Scene) (visit : Visit) (mode : Mode) (chain : Chain) (link : Link) :
    finish s visit mode chain link = (do
      mode.chainHeader s chain link
      arrive visit mode chain link
      mode.chainFooter) := by
  cases link with
  | _ => simp only [finish, arrive, Link.ending?, bind_assoc]

theorem arrive_of_ending {chain : Chain} {link : Link} {ending : Ending}
    (h : link.ending? = some ending) : arrive visit mode chain link = (do
      Render.step (.ended ending)
      Render.write (mode.endingMark ending)) := by
  cases link with
  | value id => simp [Link.ending?] at h
  | _ =>
      obtain rfl := Option.some.inj h
      rfl

end Walk

end ValueLens
