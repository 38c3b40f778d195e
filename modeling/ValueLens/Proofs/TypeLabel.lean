/-
**The type in front of a dump.**

Two parts of the library spell a type with a star for each pointer.  A dump counts the stars while
it follows a chain of indirections, looks through one holder behind each of them, and names the
value at the end.  A type label goes through pointers and holders without counting anything and puts
its stars together on the way back.  The two agree wherever both of them see the same values: the
values inside of each other come to an end at something that has a type to name, no address comes
again, and below a pointer no holder holds another holder.

The agreement is an induction on the fuel of the label.  What carries it is the position behind a
holder: the chain stands at the value *behind* the one at which the label stands, and the stars it
has counted so far are in front of the rest of the label.

Main definitions:

* `ValueLens.Shape.isNamed` — where values inside of each other end with a type;
* `ValueLens.Graph.Spelled` — the values for which the type can be spelled both ways;
* `ValueLens.Trace.Begins` — what a computation writes first.

Main results:

* `ValueLens.Graph.Onward.walk_label` — **a chain counts the stars of the label**;
* `ValueLens.Scene.dump_starts_with_type_label` — **a dump starts with the type label**.
-/
import ValueLens.Proofs.Digits
import ValueLens.Proofs.Unwrapping
import ValueLens.Proofs.Writing

set_option relaxedAutoImplicit false
set_option autoImplicit false

namespace ValueLens

open Relation (ReflTransGen TransGen)

/-! ### Types that can be spelled -/

/-- Where values inside of each other end with a type of their own: at a nil pointer, and at every
other value with nothing inside but an invalid one, a guard and an empty holder. -/
def Shape.isNamed : Shape → Bool
  | .pointer _ target => target.isNone
  | .holder _ => false
  | .invalid => false
  | .guarded _ _ _ => false
  | _ => true

theorem Shape.inner?_of_isNamed {shape : Shape} (h : shape.isNamed = true) :
    shape.inner? = none := by
  cases shape with
  | pointer a target => simpa [Shape.isNamed, Shape.inner?] using h
  | holder content => simp [Shape.isNamed] at h
  | _ => rfl

theorem Shape.isHolder_of_isNamed {shape : Shape} (h : shape.isNamed = true) :
    shape.isHolder = false := by
  cases shape with
  | holder content => simp [Shape.isNamed] at h
  | _ => rfl

namespace Graph

variable {g : Graph} {id inner : NodeId} {path : List Address} {a : Address} {label : String}

theorem unwraps_of_pointer (hs : g.shape id = .pointer a (some inner)) : g.Unwraps id inner := by
  simp [Unwraps, hs, Shape.inner?]

theorem unwraps_of_holder (hs : g.shape id = .holder (some inner)) : g.Unwraps id inner := by
  simp [Unwraps, hs, Shape.inner?]

/-- **The type of a value can be spelled**, by what is inside of it. -/
structure Spelled (g : Graph) (id : NodeId) : Prop where
  /-- The values inside of each other come to an end that has a type. -/
  ends : ∃ last, ReflTransGen g.Unwraps id last ∧ (g.shape last).isNamed = true
  /-- No two pointers among them have the same address. -/
  fresh : ∀ p q a b x y, ReflTransGen g.Unwraps id p → TransGen g.Unwraps p q →
    g.shape p = .pointer a (some x) → g.shape q = .pointer b (some y) → a ≠ b
  /-- Below a pointer, no holder holds another holder. -/
  single : ∀ p h a x c, ReflTransGen g.Unwraps id p → TransGen g.Unwraps p h →
    g.shape p = .pointer a (some x) → g.shape h = .holder (some c) → (g.shape c).isHolder = false

/-- What is inside of a value can be spelled if the value can. -/
theorem Spelled.next (h : g.Spelled id) (hinner : g.Unwraps id inner) : g.Spelled inner where
  ends := by
    obtain ⟨last, hlast, hnamed⟩ := h.ends
    rcases ReflTransGen.cases_head hlast with rfl | ⟨other, hother, hrest⟩
    · exact absurd (hinner.symm.trans (Shape.inner?_of_isNamed hnamed)) (by simp)
    · obtain rfl : other = inner := Option.some.inj (hother.symm.trans hinner)
      exact ⟨last, hrest, hnamed⟩
  fresh p q a b x y hp := h.fresh p q a b x y (.head hinner hp)
  single p k a x c hp := h.single p k a x c (.head hinner hp)

/-- Such a value is the end, a pointer to another or a holder of another. -/
theorem Spelled.cases (h : g.Spelled id) :
    (g.shape id).isNamed = true ∨ (∃ a target, g.shape id = .pointer a (some target)) ∨
      ∃ content, g.shape id = .holder (some content) := by
  obtain ⟨last, hlast, hnamed⟩ := h.ends
  rcases ReflTransGen.cases_head hlast with rfl | ⟨inner, hinner, -⟩
  · exact Or.inl hnamed
  · unfold Unwraps at hinner
    cases hs : g.shape id with
    | pointer a target =>
        obtain rfl : target = some inner := by simpa [hs, Shape.inner?] using hinner
        exact Or.inr (Or.inl ⟨a, inner, rfl⟩)
    | holder content =>
        obtain rfl : content = some inner := by simpa [hs, Shape.inner?] using hinner
        exact Or.inr (Or.inr ⟨inner, rfl⟩)
    | _ => simp [hs, Shape.inner?] at hinner

theorem Spelled.ne_invalid (h : g.Spelled id) : g.shape id ≠ .invalid := by
  intro hs
  rcases h.cases with hnamed | ⟨a, target, hs'⟩ | ⟨content, hs'⟩
  · simp [hs, Shape.isNamed] at hnamed
  · simp [hs] at hs'
  · simp [hs] at hs'

/-- Such a value is an indirection only if it is a pointer. -/
theorem Spelled.exists_pointer {c : Config} (h : g.Spelled id)
    (hs : (g.shape id).isIndirection c = true) : ∃ a target, g.shape id = .pointer a target := by
  rcases h.cases with hnamed | ⟨a, target, hs'⟩ | ⟨content, hs'⟩
  · cases hshape : g.shape id with
    | pointer a target => exact ⟨a, target, rfl⟩
    | guarded a content lock => simp [hshape, Shape.isNamed] at hnamed
    | _ => simp [hshape, Shape.isIndirection] at hs
  · exact ⟨a, some target, hs'⟩
  · simp [hs', Shape.isIndirection] at hs

/-- A value that is no holder stands behind itself. -/
theorem behind?_of_not_isHolder (h : (g.shape id).isHolder = false) :
    Chain.behind? g id = some id := by
  unfold Chain.behind?
  split
  · next hs => simp [hs, Shape.isHolder] at h
  · rfl

/-- There is something behind every such value. -/
theorem Spelled.exists_behind (h : g.Spelled id) : ∃ next, Chain.behind? g id = some next := by
  rcases h.cases with hnamed | ⟨a, target, hs⟩ | ⟨content, hs⟩
  · exact ⟨id, behind?_of_not_isHolder (Shape.isHolder_of_isNamed hnamed)⟩
  · exact ⟨id, behind?_of_not_isHolder (by rw [hs]; rfl)⟩
  · exact ⟨content, by simp [Chain.behind?, hs]⟩

/-- The values inside of each other do not come back to themselves. -/
theorem Spelled.not_circular (h : g.Spelled id) : ¬g.Circular id := by
  obtain ⟨last, hlast, hnamed⟩ := h.ends
  intro hcircular
  have hend : g.Circular last := by
    clear hnamed
    induction hlast with
    | refl => exact hcircular
    | tail _ hnext ih => exact ih.next hnext
  obtain ⟨next, hnext⟩ := hend.exists_unwraps
  exact absurd (hnext.symm.trans (Shape.inner?_of_isNamed hnamed)) (by simp)

theorem Spelled.exists_label (h : g.Spelled id) : ∃ label, g.typeLabel? id = some label :=
  Option.isSome_iff_exists.1 ((typeLabel?_isSome_iff id).2 h.not_circular)

/-! ### Along a chain -/

/-- **What a chain can still spell**, from a value on, with the addresses of a path behind it: it
will meet none of them, and no holder that holds another. -/
structure Onward (g : Graph) (path : List Address) (id : NodeId) : Prop extends g.Spelled id where
  off : ∀ q b y, ReflTransGen g.Unwraps id q → g.shape q = .pointer b (some y) → b ∉ path
  plain : ∀ h c, ReflTransGen g.Unwraps id h → g.shape h = .holder (some c) →
    (g.shape c).isHolder = false

/-- A chain starts at a pointer, with nothing behind it. -/
theorem Spelled.onward {target : Option NodeId} (h : g.Spelled id)
    (hs : g.shape id = .pointer a target) : g.Onward [] id where
  toSpelled := h
  off := by simp
  plain := by
    intro k c hk hshape
    rcases Relation.reflTransGen_iff_eq_or_transGen.1 hk with rfl | hbelow
    · simp [hs] at hshape
    · obtain ⟨x, hx, -⟩ := TransGen.head'_iff.1 hbelow
      obtain rfl : target = some x := by simpa [Unwraps, hs, Shape.inner?] using hx
      exact h.single id k a x c .refl hbelow hs hshape

/-- Behind a pointer, the address of the pointer is on the path. -/
theorem Onward.target (h : g.Onward path id) (hs : g.shape id = .pointer a (some inner)) :
    g.Onward (a :: path) inner := by
  have hinner : g.Unwraps id inner := unwraps_of_pointer hs
  refine ⟨h.toSpelled.next hinner, ?_, fun k c hk => h.plain k c (.head hinner hk)⟩
  intro q b y hq hshape
  rw [List.mem_cons, not_or]
  refine ⟨?_, h.off q b y (.head hinner hq) hshape⟩
  exact (h.fresh id q a b inner y .refl (.head' hinner hq) hs hshape).symm

/-- Behind a holder, the path is the same. -/
theorem Onward.content (h : g.Onward path id) (hs : g.shape id = .holder (some inner)) :
    g.Onward path inner := by
  have hinner : g.Unwraps id inner := unwraps_of_holder hs
  exact ⟨h.toSpelled.next hinner, fun q b y hq => h.off q b y (.head hinner hq),
    fun k c hk => h.plain k c (.head hinner hk)⟩

theorem stars_succ_append (n : Nat) (t : String) :
    Mode.stars (n + 1) ++ t = Mode.stars n ++ ("*" ++ t) := by
  rw [← String.toList_inj]
  simp [Mode.stars, Numeral.toList_pushn, List.replicate_succ']

/-- At the end the label is the name of the type. -/
theorem typeLabelFrom?_of_isNamed (h : (g.shape id).isNamed = true) (n : Nat) :
    g.typeLabelFrom? (n + 1) id = some (g.typeName id) := by
  cases hs : g.shape id with
  | pointer a target =>
      obtain rfl : target = none := by simpa [hs, Shape.isNamed] using h
      simp [typeLabelFrom?, hs]
  | holder content => simp [hs, Shape.isNamed] at h
  | _ => simp [typeLabelFrom?, hs]

/-- A chain stops where there is a type to name. -/
theorem walk_of_isNamed {s : Scene} (h : (s.graph.shape id).isNamed = true) (fuel : Nat)
    (chain : Chain) (st : RenderState) :
    ∃ link, Chain.walk s (fuel + 1) chain id st = ⟨[], some ((chain, link), st)⟩ ∧
      Mode.chainType s.graph chain link = Mode.stars chain.indirects ++ s.graph.typeName id := by
  cases hs : s.graph.shape id with
  | pointer a target =>
      obtain rfl : target = none := by simpa [hs, Shape.isNamed] using h
      refine ⟨.nil (s.graph.typeName id) true, ?_, rfl⟩
      simp [Chain.walk, show (s.graph.node id).shape = _ from hs, Graph.typeName]
  | invalid => simp [hs, Shape.isNamed] at h
  | guarded a content lock => simp [hs, Shape.isNamed] at h
  | _ =>
      refine ⟨.value id, ?_, rfl⟩
      simp [Chain.walk, show (s.graph.node id).shape = _ from hs]

/-- **A chain counts the stars of the label.**  It stands at the value behind the one at which the
label stands, and the stars it has counted are in front of what is left of the label. -/
theorem Onward.walk_label {s : Scene} {n fuel : Nat} {next : NodeId} {st : RenderState}
    (h : s.graph.Onward st.path id) (hlabel : s.graph.typeLabelFrom? n id = some label)
    (hbehind : Chain.behind? s.graph id = some next) (hfuel : n ≤ fuel) (chain : Chain) :
    ∃ chain' link σ, Chain.walk s fuel chain next st = ⟨[], some ((chain', link), σ)⟩ ∧
      Mode.chainType s.graph chain' link = Mode.stars chain.indirects ++ label := by
  induction n generalizing fuel id next label st chain with
  | zero => simp [typeLabelFrom?] at hlabel
  | succ n ih =>
      obtain ⟨m, rfl⟩ := Nat.exists_eq_add_of_le' (Nat.le_trans (Nat.le_add_left 1 n) hfuel)
      rcases h.cases with hnamed | ⟨a, target, hs⟩ | ⟨content, hs⟩
      · have hhere := behind?_of_not_isHolder (Shape.isHolder_of_isNamed hnamed)
        obtain rfl : id = next := Option.some.inj (hhere.symm.trans hbehind)
        rw [typeLabelFrom?_of_isNamed hnamed] at hlabel
        obtain rfl := Option.some.inj hlabel
        obtain ⟨link, hwalk, htype⟩ := walk_of_isNamed hnamed m chain st
        exact ⟨chain, link, st, hwalk, htype⟩
      · -- the pointer is a star on both sides, and its address is new to the path
        obtain rfl : id = next := by simpa [Chain.behind?, hs] using hbehind
        obtain ⟨rest, hrest, rfl⟩ : ∃ rest, s.graph.typeLabelFrom? n target = some rest ∧
            "*" ++ rest = label := by
          simpa [typeLabelFrom?, hs, Option.map_eq_some_iff] using hlabel
        have htarget : s.graph.Onward (Chain.opened st a).path target := h.target hs
        obtain ⟨next, hnext⟩ := htarget.exists_behind
        have hlink : Chain.link? s id = some (a, some next) := by simp [Chain.link?, hs, hnext]
        obtain ⟨chain', link, σ, hwalk, htype⟩ :=
          ih htarget hrest hnext (Nat.le_of_succ_le_succ hfuel) (chain.extended a)
        refine ⟨chain', link, σ, ?_, htype.trans (stars_succ_append _ _)⟩
        have htaking : (chain.extended a).taking (Chain.lockAt s id) = chain.extended a := by
          simp [Chain.lockAt, hs, Chain.taking]
        rw [Chain.walk_of_next hlink (h.off id a target .refl hs), htaking, hwalk]
      · -- the holder has been looked through already, and what it holds is no other holder
        obtain rfl : content = next := by simpa [Chain.behind?, hs] using hbehind
        refine ih (h.content hs) ?_ ?_ (Nat.le_of_succ_le hfuel) chain
        · simpa [typeLabelFrom?, hs] using hlabel
        · exact behind?_of_not_isHolder (h.plain id content .refl hs)

end Graph

/-! ### What is written first -/

/-- **What a computation writes begins with a text**, whether or not it comes to an end. -/
def Trace.Begins {α : Type} (m : Trace α) (t : List Char) : Prop := t <+: m.text.toList

theorem Trace.Begins.bind {α β : Type} {m : Trace α} {t : List Char} (h : m.Begins t)
    (k : α → Trace β) : (m >>= k).Begins t := by
  cases hr : m.result with
  | none =>
      rw [Trace.bind_of_none hr]
      exact h
  | some a =>
      unfold Trace.Begins
      rw [Trace.text_bind hr, String.toList_append]
      exact h.trans (List.prefix_append _ _)

/-- What the first of two computations writes first, both do. -/
theorem Render.begins_bind {α β : Type} {m : Render α} {st : RenderState} {t : List Char}
    (h : (m st).Begins t) (k : α → Render β) : ((m >>= k) st).Begins t :=
  Trace.Begins.bind h _

/-- If the first of two computations writes nothing, what the second writes first, both do. -/
theorem Render.Writes.begins_bind {α β : Type} {m : Render α} {k : α → Render β}
    {st σ : RenderState} {a : α} {t : List Char} (hm : Render.Writes m st [] a σ)
    (hk : (k a σ).Begins t) : ((m >>= k) st).Begins t := by
  have htext : ((m >>= k) st).text = (m st).text ++ (k a σ).text := Trace.text_bind hm.result _
  unfold Trace.Begins
  rw [htext, String.toList_append, hm.text]
  exact hk

namespace Walk

open Render

variable {s : Scene} {id : NodeId} {label : String}

/-- A type in parentheses. -/
def heading (label : String) : List Char := ("(" ++ label ++ ")").toList

/-- The end of a chain begins with the type there. -/
theorem finish_begins (visit : Visit) (chain : Chain) (link : Link) (st : RenderState) :
    (finish s visit .dump chain link st).Begins
      (heading (Mode.chainType s.graph chain link)) := by
  have hwrite : (Render.write ("(" ++ Mode.chainType s.graph chain link ++ ")") st).Begins
      (heading (Mode.chainType s.graph chain link)) := by
    simp [Trace.Begins, Trace.text, Effect.text?, heading]
  unfold finish Mode.chainHeader
  exact begins_bind (begins_bind hwrite _) _

/-- A chain of which the label can be spelled begins with the label. -/
theorem follow_begins {target : Option NodeId} {a : Address} {n : Nat} (h : s.graph.Spelled id)
    (hs : s.graph.shape id = .pointer a target) (hfuel : n ≤ Chain.fuel s.graph)
    (hlabel : s.graph.typeLabelFrom? n id = some label) (visit : Visit) :
    (follow s visit .dump id {}).Begins (heading label) := by
  have honward : s.graph.Onward ({} : RenderState).path id := h.onward hs
  have hbehind : Chain.behind? s.graph id = some id :=
    Graph.behind?_of_not_isHolder (by rw [hs]; rfl)
  obtain ⟨chain, link, σ, hwalk, htype⟩ := honward.walk_label hlabel hbehind hfuel {}
  have hlabel : Mode.chainType s.graph chain link = label := by
    rw [htype]
    rfl
  have hwrites : Writes (Chain.walk s (Chain.fuel s.graph) {} id) {} [] (chain, link) σ := by
    constructor
    · rw [hwalk]
    · rw [hwalk]
      rfl
  refine hwrites.begins_bind (begins_bind ?_ _)
  rw [← hlabel]
  exact finish_begins visit chain link σ

/-- A chain at the root is walked, and nothing is indented before it. -/
theorem beginChain_writes_root (c : Config) (shape : Shape) :
    Writes (Mode.beginChain c shape .dump) {} [] true {} :=
  (Mode.indent_writes c .start false).bind (Writes.pure true _)

/-- A value at the root that is shown by itself begins with its type. -/
theorem value_begins (texts : Texts) (visit : Visit) (id : NodeId) :
    (value s texts visit .dump id {}).Begins (heading (s.graph.typeName id)) := by
  refine begins_bind ?_ _
  have hheader := Mode.header_writes s (s.graph.node id) .start false
  have htext : (Mode.header s (s.graph.node id) .dump {}).text.toList =
      heading (s.graph.typeName id) ++
        ' ' :: (Mode.lengthsOf s.config (s.graph.node id).shape).toList := by
    refine hheader.text.trans ?_
    simp [Frame.start, Mode.lead, Mode.margin, Mode.tag, heading, Graph.typeName]
  unfold Trace.Begins
  rw [htext]
  exact List.prefix_append _ _

/-- **The walk of a value begins with its label.** -/
theorem walk_begins {n fuel : Nat} (h : s.graph.Spelled id)
    (hlabel : s.graph.typeLabelFrom? n id = some label) (hchain : n ≤ Chain.fuel s.graph)
    (hfuel : n ≤ fuel) : (walk s fuel .dump id {}).Begins (heading label) := by
  induction n generalizing fuel id with
  | zero => simp [Graph.typeLabelFrom?] at hlabel
  | succ n ih =>
      obtain ⟨m, rfl⟩ := Nat.exists_eq_add_of_le' (Nat.le_trans (Nat.le_add_left 1 n) hfuel)
      rw [walk_succ]
      rcases level_cases s (keyTexts s m) (walk s m) .dump id with
        ⟨content, hs, hlevel⟩ | ⟨hs, -⟩ | ⟨hs, hlevel⟩ | ⟨hs, hholder, hlevel⟩
      · -- holders at the root may hold holders: each of them is one level of the walk
        rw [hlevel]
        refine ih (h.next (Graph.unwraps_of_holder hs)) ?_ (Nat.le_of_succ_le hchain)
          (Nat.le_of_succ_le_succ hfuel)
        simpa [Graph.typeLabelFrom?, hs] using hlabel
      · exact absurd hs h.ne_invalid
      · obtain ⟨a, target, hpointer⟩ := h.exists_pointer hs
        rw [hlevel]
        refine (beginChain_writes_root _ _).begins_bind ?_
        exact follow_begins h hpointer hchain hlabel _
      · have hnamed : (s.graph.shape id).isNamed = true := by
          rcases h.cases with hnamed | ⟨a, target, hpointer⟩ | ⟨content, hcontent⟩
          · exact hnamed
          · simp [hpointer, Shape.isIndirection] at hs
          · exact absurd hcontent (hholder content)
        rw [Graph.typeLabelFrom?_of_isNamed hnamed] at hlabel
        obtain rfl := Option.some.inj hlabel
        rw [hlevel]
        exact value_begins _ _ id

end Walk

namespace Scene

open Render (fromStart_effects)

/-- **A dump starts with the type label.**  Under every configuration, if the values inside of each
other from the root come to an end with a type, repeat no address, and below a pointer no holder
holds another, then the root has a type label, and the first that is written of its dump is this
label in parentheses. -/
theorem dump_starts_with_type_label (s : Scene) (id : NodeId) (h : s.graph.Spelled id) :
    ∃ label, s.graph.typeLabel? id = some label ∧
      ("(" ++ label ++ ")").toList <+: (s.dump [id]).text.toList ∧
      ∀ text, (s.dumpText [id]).result = some text →
        ("(" ++ label ++ ")").toList <+: text.toList := by
  obtain ⟨label, hlabel⟩ := h.exists_label
  have hchain : s.graph.chainFuel ≤ Chain.fuel s.graph := by simp [Graph.chainFuel, Chain.fuel]
  have hfuel : s.graph.chainFuel ≤ s.fuel := by
    have hpow : s.graph.size + 2 ≤ Walk.fuel s.graph := Nat.le_self_pow (by decide) _
    exact Nat.le_trans hchain (Nat.le_trans hpow s.graph_fuel_le)
  have hpresent : (s.present .dump id).Begins (Walk.heading label) := by
    have hwalk := Walk.walk_begins h hlabel hchain hfuel
    rwa [Trace.Begins, Trace.text, ← fromStart_effects] at hwalk
  have hdump : (s.dump [id]).Begins (Walk.heading label) := hpresent.bind _
  refine ⟨label, hlabel, hdump, ?_⟩
  intro text htext
  obtain ⟨_, -, rfl⟩ := Option.map_eq_some_iff.1 htext
  exact hdump

/-- A number behind two pointers, with holders around and between them. -/
def wrapped : Scene where
  graph :=
    ⟨#[{ shape := .holder (some 1), typeName := "Any" },
       { shape := .holder (some 2), typeName := "Any" },
       { shape := .pointer 0x10 (some 3), typeName := "Box" },
       { shape := .holder (some 4), typeName := "Any" },
       { shape := .pointer 0x20 (some 5), typeName := "Box" },
       { shape := .uint 7 8, typeName := "u8" }]⟩

/-- What is inside of a value has a higher number. -/
theorem wrapped_lt {p q : NodeId} (h : TransGen wrapped.graph.Unwraps p q) : p < q := by
  have hinner : ∀ a < 6, ∀ b ∈ (wrapped.graph.shape a).inner?, a < b := by decide
  induction h with
  | single hq => exact hinner _ hq.lt_size _ hq
  | tail _ hq ih => exact Nat.lt_trans ih (hinner _ hq.lt_size _ hq)

theorem wrapped_spelled : wrapped.graph.Spelled 0 where
  ends := ⟨5, .head rfl (.head rfl (.head rfl (.head rfl (.single rfl)))), rfl⟩
  fresh := by
    intro p q a b x y _ hpq hp hq
    have hall : ∀ p < 6, ∀ q < 6, p < q → (wrapped.graph.shape p).address? ≠ none →
        (wrapped.graph.shape p).address? ≠ (wrapped.graph.shape q).address? := by decide
    have hdiffer := hall p (Graph.unwraps_of_pointer hp).lt_size q
      (Graph.unwraps_of_pointer hq).lt_size (wrapped_lt hpq)
    simpa [hp, hq, Shape.address?] using hdiffer
  single := by
    intro p k a x c _ hpk hp hk
    have hall : ∀ p < 6, ∀ k < 6, p < k → (wrapped.graph.shape p).address? ≠ none →
        ∀ c ∈ (wrapped.graph.shape k).inner?, (wrapped.graph.shape c).isHolder = false := by decide
    refine hall p (Graph.unwraps_of_pointer hp).lt_size k (Graph.unwraps_of_holder hk).lt_size
      (wrapped_lt hpk) ?_ c (Graph.unwraps_of_holder hk)
    simp [hp, Shape.address?]

theorem wrapped_starts_with_type_label :
    wrapped.graph.Spelled 0 ∧ wrapped.graph.typeLabel? 0 = some "**u8" ∧
      "(**u8)".toList <+: (wrapped.dump [0]).text.toList := by
  have hlabel : wrapped.graph.typeLabel? 0 = some "**u8" := by decide
  obtain ⟨label, hsome, hdump, -⟩ := dump_starts_with_type_label wrapped 0 wrapped_spelled
  obtain rfl : "**u8" = label := Option.some.inj (hlabel.symm.trans hsome)
  exact ⟨wrapped_spelled, hlabel, hdump⟩

/-- A pointer to a holder that holds another holder. -/
def twiceHeld : Scene where
  graph :=
    ⟨#[{ shape := .pointer 0x10 (some 1), typeName := "Box" },
       { shape := .holder (some 2), typeName := "Any" },
       { shape := .holder (some 3), typeName := "Some" },
       { shape := .uint 7 8, typeName := "u8" }]⟩

-- A chain looks through one holder and names the next, which a label looks through as well.
example : twiceHeld.graph.typeLabel? 0 = some "*u8" ∧
    "(*Some)".toList <+: (twiceHeld.dump [0]).text.toList := by decide +kernel

end Scene

end ValueLens
