/-
**The dump of a document.**

A document that has been placed in a graph is found there part by part: every node has the shape and
the type of its part, and the parts of a whole have smaller numbers than the whole.  So a walk with
more fuel than the number of the root visits all of the document.  What it writes is the text of the
document, up to the order of the members of objects, which sorting may change; the flags of the
state are clear when it ends.

As the text of a document can be taken apart, the dump of a document tells what the document was.

Main definitions:

* `ValueLens.Json.Value.Holds` — a graph that holds a document at a node;
* `ValueLens.Json.Value.dumped` — the dump of a document by itself.

Main results:

* `ValueLens.Json.Value.place_holds` — placing a document makes the graph hold it;
* `ValueLens.Json.Value.walk_writes` — **a walk writes the text of the document**;
* `ValueLens.Json.Value.agree_of_dumped_eq` — **documents with the same dump agree**.
-/
import ValueLens.Proofs.DocumentText
import ValueLens.Proofs.Stacking

set_option relaxedAutoImplicit false
set_option autoImplicit false

namespace ValueLens

open Render

namespace Json.Value

open Mode (margin tag)

theorem itemLines_eq (c : Config) (depth : Nat) (items : List Value) :
    itemLines c depth items =
      Mode.lines (items.map fun v => margin c depth ++ block c depth v) := by
  induction items with
  | nil => rfl
  | cons v items ih => simp [itemLines, Mode.lines, block, ih]

/-- The line of a member. -/
def memberLine (c : Config) (depth : Nat) (m : String × Value) : List Char :=
  margin c depth ++ (tag nameKind ++ (quotation c m.1 ++ ([':', ' '] ++ block c depth m.2)))

theorem memberLines_eq (c : Config) (depth : Nat) (members : List (String × Value)) :
    memberLines c depth members = Mode.lines (members.map (memberLine c depth)) := by
  induction members with
  | nil => rfl
  | cons m members ih => simp [memberLines, Mode.lines, memberLine, block, ih]

/-! ### Documents in graphs -/

/-- The shape of a document without parts. -/
def leafShape? : Value → Option Shape
  | .null => some (.holder none)
  | .bool b => some (.bool b)
  | .number n => some n.shape
  | .text t => some (.text t)
  | .array _ => none
  | .object _ => none

mutual

/-- **A graph that holds a document at a node.** -/
inductive Holds (g : Graph) : NodeId → Value → Prop where
  | leaf {id : NodeId} {v : Value} {shape : Shape} (hshape : v.leafShape? = some shape)
      (hnode : g.node id = { shape := shape, typeName := v.kind }) : Holds g id v
  | array {id : NodeId} {ids : List NodeId} {items : List Value}
      (hnode : g.node id =
        { shape := .slice (some (.ofItems ids)), typeName := kind (.array items) })
      (hitems : List.Forall₂ (Holds g) ids items) : Holds g id (.array items)
  | object {id : NodeId} {es : List Entry} {members : List (String × Value)}
      (hnode : g.node id = { shape := .map (some es), typeName := kind (.object members) })
      (hmembers : List.Forall₂ (HoldsMember g) es members) : Holds g id (.object members)

/-- An entry that holds a member. -/
inductive HoldsMember (g : Graph) : Entry → String × Value → Prop where
  | intro {e : Entry} {name : String} {v : Value}
      (hkey : g.node e.key = { shape := .text name, typeName := nameKind })
      (hvalue : Holds g e.value v) : HoldsMember g e (name, v)

end

open ValueLens.Graph

mutual

/-- **Placing a document makes the graph hold it**, and so does every graph with more nodes. -/
theorem place_holds :
    ∀ (v : Value) {g g' : Graph}, g.Stacked → (v.place g).2.Extends g' →
      Holds g' (v.place g).1 v
  | .null, _, _, _, hg => .leaf rfl hg.node_of_add
  | .bool _, _, _, _, hg => .leaf rfl hg.node_of_add
  | .number _, _, _, _, hg => .leaf rfl hg.node_of_add
  | .text _, _, _, _, hg => .leaf rfl hg.node_of_add
  | .array items, _, _, h, hg =>
      .array hg.node_of_add (placeItems_holds items h ((add_extends _ _).trans hg))
  | .object members, _, _, h, hg =>
      .object hg.node_of_add (placeMembers_holds members h ((add_extends _ _).trans hg))

theorem placeItems_holds :
    ∀ (items : List Value) {g g' : Graph}, g.Stacked → (placeItems items g).2.Extends g' →
      List.Forall₂ (Holds g') (placeItems items g).1 items
  | [], _, _, _, _ => .nil
  | v :: rest, g, g', h, hg => by
      have hv := place_grows v g h
      have hrest := placeItems_grows rest _ hv.stacked
      exact .cons (place_holds v h (hrest.old.trans hg)) (placeItems_holds rest hv.stacked hg)

theorem placeMembers_holds :
    ∀ (members : List (String × Value)) {g g' : Graph}, g.Stacked →
      (placeMembers members g).2.Extends g' →
      List.Forall₂ (HoldsMember g') (placeMembers members g).1 members
  | [], _, _, _, _ => .nil
  | (name, v) :: rest, g, g', h, hg => by
      have hname : Grows g [g.size] (g.add { shape := .text name, typeName := nameKind }).2 :=
        (Grows.refl h).add_whole rfl (by simp [Shape.parts])
      have hv := place_grows v _ hname.stacked
      have hrest := placeMembers_grows rest _ hv.stacked
      refine .cons (.intro ?_ ?_) (placeMembers_holds rest hv.stacked hg)
      · exact ((hv.old.trans hrest.old).trans hg).node_of_add
      · exact place_holds v hname.stacked (hrest.old.trans hg)

end

end Json.Value

/-! ### Walks -/

/-- **A configuration that shows all of a document**: no limit to the depth, and no elements that
count as bytes. -/
structure Config.ShowsAll (c : Config) : Prop where
  maxDepth : c.maxDepth = 0
  byteElementTypes : c.byteElementTypes = []
  bytePredicate : c.bytePredicate = none

theorem Config.ShowsAll.atLimit {c : Config} (h : c.ShowsAll) (depth : Nat) :
    c.atLimit depth = false := by
  simp [Config.atLimit, h.maxDepth]

theorem Config.ShowsAll.isByteElement {c : Config} (h : c.ShowsAll) (typeName : String) :
    c.isByteElement typeName = false := by
  simp [Config.isByteElement, h.byteElementTypes, h.bytePredicate]

namespace KeyOrder

theorem sortOn_perm {α κ : Type} (compare : κ → κ → Ordering) (xs : List (κ × α)) :
    (sortOn compare xs).Perm (xs.map Prod.snd) :=
  (List.mergeSort_perm xs _).map Prod.snd

/-- Entries whose keys are texts are put in some order without a trace. -/
theorem exists_sort_eq {s : Scene} (echo : NodeId → Trace String) (hookAllowed : Bool)
    {es : List Entry} (h : ∀ e ∈ es, ∃ t, s.graph.shape e.key = .text t) :
    ∃ ordered, sort s echo hookAllowed es = pure ordered ∧ ordered.Perm es := by
  have hsimple : (es.all fun e => isSimple (s.graph.shape e.key)) = true := by
    rw [List.all_eq_true]
    intro e he
    obtain ⟨t, ht⟩ := h e he
    rw [ht]
    rfl
  unfold sort
  rw [if_pos hsimple]
  refine ⟨_, rfl, (sortOn_perm _ _).trans ?_⟩
  rw [List.map_map]
  exact (List.map_id es).symm ▸ List.Perm.refl _

end KeyOrder

namespace Json.Value

open ValueLens.Graph ValueLens.Walk
open Mode (margin tag)

variable {s : Scene} {f : Frame} {id : NodeId} {fuel : Nat}

/-- Induction over a document and its parts. -/
theorem induction_on_parts {P : Value → Prop} (leaf : ∀ v shape, v.leafShape? = some shape → P v)
    (array : ∀ items, (∀ v ∈ items, P v) → P (.array items))
    (object : ∀ members, (∀ m ∈ members, P m.2) → P (.object members)) : ∀ v, P v
  | .null => leaf _ _ rfl
  | .bool _ => leaf _ _ rfl
  | .number _ => leaf _ _ rfl
  | .text _ => leaf _ _ rfl
  | .array items => array items fun v _hv => induction_on_parts leaf array object v
  | .object members => object members fun m _hm => induction_on_parts leaf array object m.2
termination_by v => sizeOf v
decreasing_by
  · have hlt := List.sizeOf_lt_of_mem _hv
    simp only [Value.array.sizeOf_spec]
    omega
  · have hlt := List.sizeOf_lt_of_mem _hm
    obtain ⟨name, v⟩ := m
    simp only [Value.object.sizeOf_spec, Prod.mk.sizeOf_spec] at hlt ⊢
    omega

/-! ### Leaves -/

/-- A document without parts has the form of a text, which is the content of the document. -/
theorem exists_formOf_of_leafShape? {v : Value} {shape : Shape} (h : v.leafShape? = some shape)
    (c : Config) (depth : Nat) :
    ∃ text : Mode → String, formOf c shape = .leaf text ∧
      (Mode.lengthsOf c shape).toList ++ (text .dump).toList = content c depth v := by
  cases v with
  | null =>
      obtain rfl := Option.some.inj h
      exact ⟨_, rfl, rfl⟩
  | bool b =>
      obtain rfl := Option.some.inj h
      exact ⟨_, rfl, rfl⟩
  | number n =>
      obtain rfl := Option.some.inj h
      cases n with
      | _ => exact ⟨_, rfl, rfl⟩
  | text t =>
      obtain rfl := Option.some.inj h
      refine ⟨_, rfl, ?_⟩
      simp [Mode.lengthsOf, Mode.text, Text.quoted, content, quotation]
  | array items => simp [leafShape?] at h
  | object members => simp [leafShape?] at h

theorem leafShape?_ne_byte (v : Value) (x : UInt64) : v.leafShape? ≠ some (.uint x 8) := by
  cases v with
  | number n => cases n <;> simp [leafShape?, Number.shape]
  | _ => simp [leafShape?]

/-- No node of a document is a byte. -/
theorem Holds.shape_ne_byte {g : Graph} {v : Value} (h : Holds g id v) (x : UInt64) :
    g.shape id ≠ .uint x 8 := by
  cases h with
  | leaf hshape hnode =>
      rw [shape, hnode]
      rintro rfl
      exact v.leafShape?_ne_byte x hshape
  | array hnode hitems => simp [shape, hnode]
  | object hnode hmembers => simp [shape, hnode]

theorem byteView?_eq_none (hc : s.config.ShowsAll) {ids : List NodeId} {items : List Value}
    (h : List.Forall₂ (Holds s.graph) ids items) : byteView? s (.ofItems ids) = none := by
  have hstart : startsWithByte s (.ofItems ids) = false := by
    cases h with
    | nil => rfl
    | cons hfirst hrest =>
        simp only [startsWithByte, Sequence.ofItems]
        split
        · next hshape => exact absurd hshape (hfirst.shape_ne_byte _)
        · exact hc.isByteElement _
  simp [byteView?, hstart]

/-! ### Wholes -/

/-- **What a walk makes of a document**: with enough fuel it writes the text of a document that
agrees with it. -/
def Shown (s : Scene) (v : Value) : Prop :=
  ∀ (id fuel : Nat) (f : Frame) (continues : Bool), Holds s.graph id v → id < fuel → v.Finite →
    ∃ w, v.Agree w ∧ w.Finite ∧
      Writes (walk s fuel .dump id) (f.state continues)
        (Mode.lead s.config f continues ++ block s.config f.depth w) () (f.state false)

theorem leaf_agree {v : Value} {shape : Shape} (h : v.leafShape? = some shape) : v.Agree v := by
  cases v <;> simp_all [leafShape?, Agree, Number.Agree]

theorem walk_writes_leaf {v : Value} {shape : Shape} (h : v.leafShape? = some shape)
    {typeName : String} (hnode : s.graph.node id = { shape := shape, typeName := typeName })
    (hfuel : id < fuel) (f : Frame) (continues : Bool) :
    Writes (walk s fuel .dump id) (f.state continues)
      (Mode.lead s.config f continues ++ (tag typeName ++ content s.config f.depth v)) ()
      (f.state false) := by
  obtain ⟨fuel, rfl⟩ := Nat.exists_eq_succ_of_ne_zero (Nat.ne_zero_of_lt hfuel)
  obtain ⟨text, hform, hcontent⟩ := exists_formOf_of_leafShape? h s.config f.depth
  have hshown : (form s id).shown s (keyTexts s fuel) (walk s fuel) .dump id =
      fronted s .dump id (Render.write (text .dump)) := by
    rw [form, Graph.shape, hnode, hform]
    rfl
  have hwalk := walk_writes_fronted continues hnode rfl hshown (Writes.write _ (f.state false))
  rw [hcontent] at hwalk
  exact hwalk

theorem shown_of_leaf {v : Value} {shape : Shape} (h : v.leafShape? = some shape) : Shown s v := by
  intro id fuel f continues hholds hfuel hfinite
  refine ⟨v, leaf_agree h, hfinite, ?_⟩
  cases hholds with
  | leaf h' hnode => exact walk_writes_leaf h' hnode hfuel f continues
  | array _ _ => simp [leafShape?] at h
  | object _ _ => simp [leafShape?] at h

/-- The items of an array, line by line. -/
theorem items_written {ids : List NodeId} {items : List Value} (f : Frame)
    (h : List.Forall₂ (Holds s.graph) ids items) (hshown : ∀ v ∈ items, Shown s v)
    (hfuel : ∀ i ∈ ids, i < fuel) (hfinite : FiniteItems items) :
    ∃ ws, AgreeItems items ws ∧ FiniteItems ws ∧
      List.Forall₂ (fun i t => Writes (part s (walk s fuel) .dump i) (f.state false) t ()
        (f.state false)) ids
        (ws.map fun w => margin s.config f.depth ++ block s.config f.depth w) := by
  induction h with
  | nil => exact ⟨[], trivial, trivial, .nil⟩
  | cons hv _ ih =>
      obtain ⟨w, hagree, hw, hwrites⟩ :=
        hshown _ List.mem_cons_self _ _ f false hv (hfuel _ List.mem_cons_self) hfinite.1
      obtain ⟨ws, hagrees, hws, hrest⟩ := ih (fun v hv => hshown v (by simp [hv]))
        (fun i hi => hfuel i (by simp [hi])) hfinite.2
      exact ⟨w :: ws, ⟨hagree, hagrees⟩, ⟨hw, hws⟩, .cons (part_writes hwrites) hrest⟩

/-- **An array is shown** if its items are. -/
theorem shown_of_array (hc : s.config.ShowsAll) (hg : s.graph.Stacked)
    {items : List Value} (hshown : ∀ v ∈ items, Shown s v) : Shown s (.array items) := by
  intro id fuel f continues hholds hfuel hfinite
  cases hholds with
  | leaf h _ => simp [leafShape?] at h
  | @array _ ids _ hnode hitems =>
      obtain ⟨fuel, rfl⟩ := Nat.exists_eq_succ_of_ne_zero (Nat.ne_zero_of_lt hfuel)
      -- the items have smaller numbers than the array, so the fuel lasts for them
      have hlt : ∀ i ∈ ids, i < fuel := by
        intro i hi
        have hpart : s.graph.HasPart id i := by
          simpa [HasPart, Graph.shape, hnode, Shape.parts, Sequence.ofItems] using hi
        exact Nat.lt_of_lt_of_le (hg.lt_of_hasPart hpart) (Nat.le_of_lt_succ hfuel)
      obtain ⟨ws, hagree, hws, hwrites⟩ := items_written f.deeper hitems hshown hlt hfinite
      refine ⟨.array ws, hagree, hws, ?_⟩
      have hinside : Writes (elements s (walk s fuel) .dump (.ofItems ids)) (f.deeper.state false)
          (itemLines s.config (f.depth + 1) ws) () (f.deeper.state false) := by
        unfold elements
        rw [byteView?_eq_none hc hitems, itemLines_eq]
        exact Mode.list_writes hwrites
      have hlength : ids.length = ws.length :=
        hitems.length_eq.trans (agreeItems_iff.1 hagree).length_eq
      have hform : form s id = .sequence (.ofItems ids) := by rw [form, Graph.shape, hnode]; rfl
      have hwalk := walk_writes_fronted continues hnode rfl (congrArg _ hform)
        (Mode.nest_writes .sequence (hc.atLimit f.depth) hinside)
      simp only [block, content, List.append_assoc, List.cons_append, List.nil_append, ← hlength]
      exact hwalk

/-- A name and its value on one line. -/
theorem entry_writes {e : Entry} {name : String} {w : Value} (f : Frame)
    (hkey : s.graph.node e.key = { shape := .text name, typeName := nameKind })
    (hfuel : e.key < fuel)
    (hvalue : Writes (walk s fuel .dump e.value) (f.state true) (block s.config f.depth w) ()
      (f.state false)) :
    Writes (entry s (walk s fuel) .dump e) (f.state false)
      (memberLine s.config f.depth (name, w)) () (f.state false) := by
  have hleaf : (Value.text name).leafShape? = some (.text name) := rfl
  have hname := part_writes (walk_writes_leaf hleaf hkey hfuel f false)
  have hmark : Writes (Mode.keyMark .dump) (f.state false) (": ".toList ++ []) () (f.state true) :=
    (Writes.write _ _).bind (Writes.modify _ _)
  have hall : Writes (entry s (walk s fuel) .dump e) (f.state false) _ () (f.state false) :=
    hname.bind (hmark.bind (part_writes hvalue))
  simp only [Mode.lead, content, Bool.false_eq_true, if_false, List.append_nil, List.append_assoc,
    String.reduceToList] at hall
  exact hall

/-- The members of an object, line by line. -/
theorem members_written {es : List Entry} {members : List (String × Value)} (f : Frame)
    (h : List.Forall₂ (HoldsMember s.graph) es members) (hshown : ∀ m ∈ members, Shown s m.2)
    (hfuel : ∀ e ∈ es, e.key < fuel ∧ e.value < fuel) (hfinite : FiniteMembers members) :
    ∃ ws, AgreeMembers members ws ∧ FiniteMembers ws ∧
      List.Forall₂ (fun e t => Writes (entry s (walk s fuel) .dump e) (f.state false) t ()
        (f.state false)) es (ws.map (memberLine s.config f.depth)) := by
  induction h with
  | nil => exact ⟨[], trivial, trivial, .nil⟩
  | cons hm _ ih =>
      obtain ⟨hkey, hvalue⟩ := hm
      obtain ⟨hkeylt, hvaluelt⟩ := hfuel _ List.mem_cons_self
      obtain ⟨w, hagree, hw, hwrites⟩ :=
        hshown _ List.mem_cons_self _ _ f true hvalue hvaluelt hfinite.1
      obtain ⟨ws, hagrees, hws, hrest⟩ := ih (fun m hm => hshown m (by simp [hm]))
        (fun e he => hfuel e (by simp [he])) hfinite.2
      exact ⟨(_, w) :: ws, ⟨rfl, hagree, hagrees⟩, ⟨hw, hws⟩,
        .cons (entry_writes f hkey hkeylt hwrites) hrest⟩

theorem keys_are_texts {g : Graph} {es : List Entry} {members : List (String × Value)}
    (h : List.Forall₂ (HoldsMember g) es members) : ∀ e ∈ es, ∃ t, g.shape e.key = .text t := by
  induction h with
  | nil => simp
  | cons hm _ ih =>
      obtain ⟨hkey, -⟩ := hm
      intro e he
      rcases List.mem_cons.1 he with rfl | he
      · exact ⟨_, by rw [Graph.shape, hkey]⟩
      · exact ih e he

/-- **The entries of an object come in some order**, and finding it writes nothing. -/
theorem exists_arranged_writes (texts : Texts) {es : List Entry}
    {members : List (String × Value)} (h : List.Forall₂ (HoldsMember s.graph) es members)
    (st : RenderState) :
    ∃ ordered, ordered.Perm es ∧ Writes (arranged s texts es) st [] ordered st := by
  unfold arranged
  split
  · obtain ⟨ordered, hsort, hperm⟩ :=
      KeyOrder.exists_sort_eq (texts st.held) (st.hookAllowed s) (keys_are_texts h)
    have hlift : Writes (liftM (pure ordered : Trace (List Entry))) st [] ordered st := ⟨rfl, rfl⟩
    refine ⟨ordered, hperm, Writes.get ?_⟩
    rw [hsort]
    exact hlift
  · exact ⟨es, List.Perm.refl es, Writes.pure es st⟩

/-- **An object is shown** if its members are. -/
theorem shown_of_object (hc : s.config.ShowsAll) (hg : s.graph.Stacked)
    {members : List (String × Value)} (hshown : ∀ m ∈ members, Shown s m.2) :
    Shown s (.object members) := by
  intro id fuel f continues hholds hfuel hfinite
  cases hholds with
  | leaf h _ => simp [leafShape?] at h
  | @object _ es _ hnode hmembers =>
      obtain ⟨fuel, rfl⟩ := Nat.exists_eq_succ_of_ne_zero (Nat.ne_zero_of_lt hfuel)
      have hlt : ∀ e ∈ es, e.key < fuel ∧ e.value < fuel := by
        intro e he
        have hpart (i : NodeId) (hi : i ∈ [e.key, e.value]) : i < fuel := by
          have hpart : s.graph.HasPart id i := by
            simp only [HasPart, Graph.shape, hnode, Shape.parts, List.mem_flatMap]
            exact ⟨e, he, hi⟩
          exact Nat.lt_of_lt_of_le (hg.lt_of_hasPart hpart) (Nat.le_of_lt_succ hfuel)
        exact ⟨hpart _ (by simp), hpart _ (by simp)⟩
      obtain ⟨ordered, hordered, harranged⟩ :=
        exists_arranged_writes (keyTexts s fuel) hmembers (f.deeper.state false)
      -- the members are rearranged as the entries are, and shown in this order
      obtain ⟨rearranged, hholds, hperm⟩ := List.perm_comp_forall₂ hordered hmembers
      obtain ⟨ws, hagree, hws, hwrites⟩ := members_written f.deeper hholds
        (fun m hm => hshown m (hperm.subset hm)) (fun e he => hlt e (hordered.subset he))
        (finiteMembers_iff.2 fun m hm => finiteMembers_iff.1 hfinite m (hperm.subset hm))
      refine ⟨.object ws, agreeMembers_perm hperm.symm hagree, hws, ?_⟩
      have hinside : Writes (entries s (keyTexts s fuel) (walk s fuel) .dump es)
          (f.deeper.state false) _ () (f.deeper.state false) :=
        harranged.bind (Mode.list_writes hwrites)
      have hlength : es.length = ws.length := by
        rw [hmembers.length_eq, ← hperm.length_eq, (agreeMembers_iff.1 hagree).length_eq]
      have hform : form s id = .map es := by rw [form, Graph.shape, hnode]; rfl
      have hwalk := walk_writes_fronted continues hnode rfl (congrArg _ hform)
        (Mode.nest_writes .map (hc.atLimit f.depth) hinside)
      simp only [block, content, List.append_assoc, List.cons_append, List.nil_append, ← hlength,
        memberLines_eq]
      exact hwalk

/-- **A walk writes the text of the document**, up to the order of members. -/
theorem walk_writes (hc : s.config.ShowsAll) (hg : s.graph.Stacked)
    (v : Value) : Shown s v :=
  induction_on_parts (fun _ _ h => shown_of_leaf h) (fun _ h => shown_of_array hc hg h)
    (fun _ h => shown_of_object hc hg h) v

/-! ### Dumps -/

/-- **The dump of a document by itself.** -/
def dumped (c : Config) (hatchOpen : Bool) (v : Value) : Option String :=
  let (id, g) := v.place {}
  (Scene.dumpText { graph := g, config := c, hatchOpen := hatchOpen } [id]).result

/-- What is walked from the start is dumped with an end of line. -/
theorem dumpText_of_writes {t : List Char} {σ : RenderState}
    (h : Writes (walk s s.fuel .dump id) {} t () σ) :
    (s.dumpText [id]).result = some (String.ofList (t ++ ['\n'])) := by
  have hresult : (s.present .dump id).result = some () := by
    rw [Scene.present, fromStart_result, h.result]
    rfl
  have htext : (s.present .dump id).text.toList = t := by
    rw [Trace.text, Scene.present, fromStart_effects, ← Trace.text, h.text]
  have hdump : s.dump [id] = ⟨(s.present .dump id).effects ++ [.write "\n"], some ()⟩ :=
    Trace.bind_of_some hresult _
  have hwhole : (s.dump [id]).text = String.ofList (t ++ ['\n']) := by
    rw [← String.toList_inj, hdump, String.toList_ofList, ← htext]
    simp [Trace.text, Effect.text?]
  rw [Scene.dumpText, Trace.captured, hwhole, hdump]
  rfl

/-- **The dump of a document is the text of a document that agrees with it.** -/
theorem exists_dumped_eq {c : Config} (hc : c.ShowsAll) (hatchOpen : Bool) {v : Value}
    (hfinite : v.Finite) :
    ∃ w, v.Agree w ∧ w.Finite ∧
      v.dumped c hatchOpen = some (String.ofList (block c 0 w ++ ['\n'])) := by
  have hplaced := place_grows v {} stacked_empty
  let s : Scene := { graph := (v.place {}).2, config := c, hatchOpen := hatchOpen }
  have hlt : (v.place {}).1 < s.fuel :=
    Nat.lt_of_lt_of_le (hplaced.lt _ (by simp)).2 s.size_le_fuel
  obtain ⟨w, hagree, hw, hwrites⟩ :=
    walk_writes (s := s) hc hplaced.stacked v _ _ .start false
      (place_holds v stacked_empty (Extends.refl _)) hlt hfinite
  exact ⟨w, hagree, hw, dumpText_of_writes hwrites⟩

/-- **Documents with the same dump agree.** -/
theorem agree_of_dumped_eq (c : Config) (hc : c.ShowsAll) (hatchOpen : Bool) (a b : Value)
    (ha : a.Finite) (hb : b.Finite) (h : a.dumped c hatchOpen = b.dumped c hatchOpen) :
    a.Agree b := by
  obtain ⟨v, hav, hv, hatext⟩ := exists_dumped_eq hc hatchOpen ha
  obtain ⟨w, hbw, hw, hbtext⟩ := exists_dumped_eq hc hatchOpen hb
  rw [hatext, hbtext, Option.some.injEq, String.ofList_inj] at h
  have hend : Text.Stops Scalar.isNumeric ['\n'] := by
    rintro x ⟨⟩
    decide
  have hvw := (block_unambiguous c v w hv hw hend hend h).1
  exact (hav.trans hvw).trans hbw.symm

/-- A document with a number, a list and a quotation mark. -/
def parcel (count : Number) : Value :=
  .object [("count", .number count), ("tags", .array [.text "a\"b", .null])]

/-- An indentation that looks like the end of a line and of a container is no obstacle, and an
integer is not told from the double of the same value. -/
theorem parcels_agree :
    (parcel (.int 3)).dumped { indent := "\x7d,\n" } true =
        (parcel (.float (Binary.ofInt 3))).dumped { indent := "\x7d,\n" } true ∧
      (parcel (.int 3)).Agree (parcel (.float (Binary.ofInt 3))) := by
  have hsame : (parcel (.int 3)).dumped { indent := "\x7d,\n" } true =
      (parcel (.float (Binary.ofInt 3))).dumped { indent := "\x7d,\n" } true := by
    decide +kernel
  have hfinite {count : Number} (h : count.Finite) : (parcel count).Finite := by
    simp [parcel, Finite, FiniteMembers, FiniteItems, h]
  have hfloat : (Number.float (Binary.ofInt 3)).Finite := by
    change (Binary.ofInt 3).isFinite = true
    decide +kernel
  exact ⟨hsame, agree_of_dumped_eq _ ⟨rfl, rfl, rfl⟩ true _ _ (hfinite trivial) (hfinite hfloat)
    hsame⟩

end Json.Value

end ValueLens
