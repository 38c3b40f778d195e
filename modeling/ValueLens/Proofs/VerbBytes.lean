/-
**Raw views under the hexadecimal verbs.**

Under a hexadecimal verb a sequence of bytes is written as pairs of digits without gaps.  It is
taken for bytes if it has a raw view, and without one if the configuration takes the type of its
first element for bytes; that the elements are integers of eight bits is not enough, and a sequence
without elements is not taken for bytes at all.  So a raw view is more than a short cut here: it
shows wherever the configuration does not name the type, except where a description of the whole
sequence stands in for it.

That it shows is a matter of characters.  Digits and one fill character make no text that begins
with an opening bracket and ends with a closing one.

Main definitions:

* `ValueLens.Verb.Covered` — a sequence whose view does not matter to a verb.

Main results:

* `ValueLens.Verb.hexBytes_ne_brackets` — bytes without gaps are told from elements in brackets;
* `ValueLens.Verb.walk_withoutViews` — views that do not matter may be dropped anywhere in a graph;
* `ValueLens.Verb.byte_view_shows_unless_covered` — **when a raw view shows under a verb.**
-/
import ValueLens.Proofs.ByteViews
import ValueLens.Proofs.Digits
import ValueLens.Proofs.VerbReach

set_option relaxedAutoImplicit false
set_option autoImplicit false

namespace ValueLens

/-! ### Characters -/

/-- A text that is laid out has the fill character and characters of its own. -/
theorem Layout.mem_text {l : Layout} {t : String} {c : Char} (h : c ∈ (l.text t).toList) :
    c = l.fill ∨ c ∈ t.toList := by
  have hsurround {alignment : Alignment} {missing : Nat} {cut : String}
      (hc : c ∈ (surround l.fill alignment missing cut).toList) : c = l.fill ∨ c ∈ cut.toList := by
    simp only [surround, String.toList_append, Numeral.toList_pushn, List.mem_append,
      List.mem_replicate] at hc
    rcases hc with (⟨-, hc⟩ | hc) | ⟨-, hc⟩
    · exact Or.inl hc
    · exact Or.inr hc
    · exact Or.inl hc
  have hfill {cut : String} (hc : c ∈ (l.fillUp .left cut).toList) :
      c = l.fill ∨ c ∈ cut.toList := by
    unfold fillUp at hc
    split at hc
    · exact Or.inr hc
    · exact hsurround hc
  unfold text at h
  rcases hfill h with hc | hc
  · exact Or.inl hc
  · right
    split at hc
    · exact hc
    · rw [String.toList_ofList] at hc
      exact List.mem_of_mem_take hc

namespace Verb

/-- The digits of bytes are digits of the radix sixteen. -/
theorem exists_digit_of_mem {bytes : List UInt8} {c : Char}
    (h : c ∈ bytes.flatMap HexDump.byteChars) : ∃ d < 16, c = Numeral.digitChar d := by
  obtain ⟨b, -, hc⟩ := List.mem_flatMap.1 h
  have hb := b.toNat_lt
  rcases List.mem_cons.1 hc with rfl | hc
  · exact ⟨_, by omega, rfl⟩
  · obtain rfl := List.mem_singleton.1 hc
    exact ⟨_, by omega, rfl⟩

/-- A bracket among bytes without gaps is the fill character. -/
theorem fill_of_mem_hexBytes {v : Verb} {l : Layout} {bytes : List UInt8} {c : Char}
    (h : c ∈ (v.hexBytes l bytes).toList) (hc : c = '[' ∨ c = ']') : c = l.fill := by
  have hdigit : ∀ d < 16, Numeral.digitChar d ≠ c ∧ (Numeral.digitChar d).toUpper ≠ c := by
    rcases hc with rfl | rfl
    · decide
    · decide
  rcases Layout.mem_text h with hfill | hmem
  · exact hfill
  · exfalso
    split at hmem
    · simp only [Numeral.upper, String.toList_map, String.toList_ofList] at hmem
      obtain ⟨c', hc', rfl⟩ := List.mem_map.1 hmem
      obtain ⟨d, hd, rfl⟩ := exists_digit_of_mem hc'
      exact (hdigit d hd).2 rfl
    · rw [String.toList_ofList] at hmem
      obtain ⟨d, hd, rfl⟩ := exists_digit_of_mem hmem
      exact (hdigit d hd).1 rfl

/-- **Bytes without gaps are told from elements in brackets.** -/
theorem hexBytes_ne_brackets (v : Verb) (l : Layout) (bytes : List UInt8) (t : String) :
    v.hexBytes l bytes ≠ "[" ++ t ++ "]" := by
  intro h
  have hchars : (v.hexBytes l bytes).toList = '[' :: (t.toList ++ [']']) := by simp [h]
  have hfill {c : Char} (hc : c = '[' ∨ c = ']') : c = l.fill := by
    have hmem : c ∈ (v.hexBytes l bytes).toList := by
      rw [hchars]
      rcases hc with rfl | rfl
      · simp
      · simp
    exact fill_of_mem_hexBytes hmem hc
  exact absurd ((hfill (Or.inl rfl)).trans (hfill (Or.inr rfl)).symm) (by decide)

/-! ### Sequences -/

variable {s : Scene} {v : Verb} {l : Layout} {below : Below} {locked : Address → Below}
  {depth : Nat} {id : NodeId} {q : Sequence} {bytes : List UInt8}

theorem structural_of_elements (hq : (s.graph.shape id).elements? = some q) :
    structural s v l below locked depth id = sequence s v l below depth q := by
  unfold structural
  cases hs : s.graph.shape id with
  | array q' =>
      obtain rfl : q' = q := by simpa [hs, Shape.elements?] using hq
      rfl
  | slice q' =>
      obtain rfl : q' = some q := by simpa [hs, Shape.elements?] using hq
      rfl
  | _ => simp [hs, Shape.elements?] at hq

/-- The elements of a sequence are bytes by the type of the first. -/
def Typed (s : Scene) (q : Sequence) : Prop :=
  ∃ first rest, q.items = first :: rest ∧ s.config.isByteElement (s.graph.typeName first) = true

/-- **A sequence whose view does not matter to a verb**: an answer stands in for it, or its elements
are bytes by their type. -/
def Covered (s : Scene) (v : Verb) (id : NodeId) (q : Sequence) : Prop :=
  v.standsIn (answer s id) = true ∨ Typed s q

theorem Covered.holding (h : Covered s v id q) (held : List Address) :
    Covered (s.holding held) v id q := by
  have hasked (shape : Shape) : isAsked (shape.holding held) = isAsked shape := by
    cases shape with
    | _ => rfl
  have hanswer : answer (s.holding held) id = answer s id := by
    simp [answer, hasked, Graph.shape]
  refine Or.imp (fun hstands => by rwa [hanswer]) ?_ h
  rintro ⟨first, rest, hlist, htype⟩
  exact ⟨first, rest, hlist, by simpa using htype⟩

theorem byteRun?_of_view (hv : v.isHex = true) (hbytes : q.bytes = some bytes) :
    byteRun? s v q = some bytes := by
  simp [byteRun?, hv, hbytes]

theorem byteRun?_of_typed (hv : v.isHex = true) (hview : q.bytes = none) (htyped : Typed s q) :
    byteRun? s v q = Walk.itemBytes? s.graph q.items := by
  obtain ⟨first, rest, hitems, htype⟩ := htyped
  simp [byteRun?, hv, hview, hitems, htype]

theorem byteRun?_of_not_typed (hview : q.bytes = none) (htyped : ¬Typed s q) :
    byteRun? s v q = none := by
  unfold byteRun?
  rw [hview]
  cases hitems : q.items with
  | nil => simp
  | cons first rest =>
      have htype : s.config.isByteElement (s.graph.typeName first) ≠ true :=
        fun htype => htyped ⟨first, rest, hitems, htype⟩
      simp [htype]

/-! ### Dropping views -/

section Dropped

variable {dropped : NodeId → Bool}

theorem heard_withoutViews (s : Scene) (dropped : NodeId → Bool) (id : NodeId) :
    heard s id = heard { s with graph := s.graph.withoutViews dropped } id := by
  have hasked (shape : Shape) : isAsked shape.withoutView = isAsked shape := by
    cases shape with
    | slice q => cases q with
      | _ => rfl
    | _ => rfl
  have hsame : isAsked ((s.graph.withoutViews dropped).node id).shape =
      isAsked (s.graph.node id).shape := by
    change isAsked ((s.graph.withoutViews dropped).shape id) = isAsked (s.graph.shape id)
    rw [Graph.shape_withoutViews]
    split
    · exact hasked _
    · rfl
  have hdescribe : ((s.graph.withoutViews dropped).node id).describe =
      (s.graph.node id).describe :=
    Node.describe_congr (Graph.typeName_withoutViews id) (Graph.capability_withoutViews id)
  simp only [heard, hsame, hdescribe]

theorem answer_withoutViews (s : Scene) (dropped : NodeId → Bool) (id : NodeId) :
    answer { s with graph := s.graph.withoutViews dropped } id = answer s id := by
  have hresult := heard_result s id
  rw [heard_withoutViews s dropped, heard_result] at hresult
  exact Option.some.inj hresult

/-- A sequence keeps its elements, and its view unless that is dropped. -/
theorem elements?_withoutViews (hq : (s.graph.shape id).elements? = some q) :
    ((s.graph.withoutViews dropped).shape id).elements? =
      some (if dropped id then { q with bytes := none } else q) := by
  rw [Graph.shape_withoutViews]
  cases dropped id with
  | true => simp [Shape.elements?_withoutView, hq]
  | false => simp [hq]

theorem shape_withoutViews_of_no_elements (h : (s.graph.shape id).elements? = none) :
    (s.graph.withoutViews dropped).shape id = s.graph.shape id := by
  rw [Graph.shape_withoutViews]
  generalize s.graph.shape id = shape at h
  cases shape with
  | array q => simp [Shape.elements?] at h
  | slice q =>
      obtain rfl : q = none := h
      simp [Shape.withoutView]
  | _ => simp [Shape.withoutView]

/-- A dropped view that tells the elements is not missed where it does not matter. -/
theorem byteRun?_withoutViews
    (hhonest : ∀ bytes, q.bytes = some bytes → Walk.itemBytes? s.graph q.items = some bytes)
    (htyped : v.isHex = true → dropped id = true → q.bytes.isSome = true → Typed s q) :
    byteRun? s v q = byteRun? { s with graph := s.graph.withoutViews dropped } v
      (if dropped id then { q with bytes := none } else q) := by
  have hitems : Walk.itemBytes? s.graph q.items =
      Walk.itemBytes? (s.graph.withoutViews dropped) q.items :=
    Walk.itemBytes?_eq (s.graph.resembles_withoutViews dropped) q.items
  have hsame : byteRun? s v q =
      byteRun? { s with graph := s.graph.withoutViews dropped } v q := by
    simp only [byteRun?, Graph.typeName_withoutViews]
    cases q.bytes with
    | some bytes => rfl
    | none =>
        cases hlist : q.items with
        | nil => rfl
        | cons first rest => rw [← hlist, hitems]
  cases hdropped : dropped id with
  | false => simpa using hsame
  | true =>
      cases hview : q.bytes with
      | none =>
          have hq' : ({ q with bytes := none } : Sequence) = q := by rw [← hview]
          simpa [hq'] using hsame
      | some bytes =>
          cases hv : v.isHex with
          | false => simp [byteRun?, hv]
          | true =>
              obtain ⟨first, rest, hlist, htype⟩ := htyped hv hdropped (by simp [hview])
              rw [byteRun?_of_view hv hview, if_pos rfl, byteRun?_of_typed hv rfl]
              · rw [← hitems]
                exact (hhonest bytes hview).symm
              · exact ⟨first, rest, hlist, by simpa using htype⟩

/-- A sequence looks the same without a view that does not matter. -/
theorem sequence_withoutViews {below' : Below} {locked' : Address → Below}
    (hq : (s.graph.shape id).elements? = some q)
    (hhonest : ∀ bytes, q.bytes = some bytes → Walk.itemBytes? s.graph q.items = some bytes)
    (htyped : v.isHex = true → dropped id = true → q.bytes.isSome = true → Typed s q)
    (hbelow : byteRun? s v q = none →
      ∀ child ∈ q.items, below (depth + 1) child = below' (depth + 1) child) :
    structural s v l below locked depth id =
      structural { s with graph := s.graph.withoutViews dropped } v l below' locked' depth id := by
  rw [structural_of_elements hq,
    structural_of_elements (s := { s with graph := s.graph.withoutViews dropped })
      (elements?_withoutViews hq)]
  refine sequence_congruent (C := .equal) ?_ (byteRun?_withoutViews hhonest htyped) hbelow
  split
  · rfl
  · rfl

section Honest

variable (hviews : s.graph.HonestViews)

include hviews

theorem kin_withoutViews (roots : List NodeId) :
    Kin .output (fun a => a) Eq (s.graph.Meets roots) s
      { s with graph := s.graph.withoutViews dropped } :=
  hviews.kin s.config s.hatchOpen s.hatchOpen dropped .output

/-- Compact texts do not depend on views. -/
theorem render_withoutViews (types details : Bool) (id : NodeId) :
    s.render types details id =
      { s with graph := s.graph.withoutViews dropped }.render types details id := by
  refine Likeness.captured_eq_of_output ((kin_withoutViews hviews [id]).present_linked
    (fun _ => ?_) rfl (fun _ _ => ?_) (Or.inl fun _ => rfl) ⟨false, .root (by simp), fun h => h⟩)
  · simp [Scene.heard, Scene.mayAsk]
  · refine ⟨Likeness.output_telling, ?_⟩
    rintro key secret ⟨passed, hsees, -⟩
    exact ⟨passed, hsees, by simp⟩

/-- What is no sequence looks the same without the views. -/
theorem looks_withoutViews (h : (s.graph.shape id).elements? = none) :
    Looks .equal s { s with graph := s.graph.withoutViews dropped } v depth id where
  shape := .of_eq (shape_withoutViews_of_no_elements h).symm
  typeName_eq := (Graph.typeName_withoutViews id).symm
  run_eq hq := by simp [h] at hq
  order {es} _ := by
    have hres := s.graph.resembles_withoutViews dropped
    refine KeyOrder.sort_congr rfl (fun e _ => (hres e.key).isSimple_eq) (fun e _ => ?_)
      (fun _ _ => KeyOrder.descriptions?_congr fun e _ => ?_)
      fun _ _ e _ => render_withoutViews hviews _ _ e.key
    · rw [(kin_withoutViews hviews []).ofNode_eq, Graph.size_withoutViews]
    · exact (Node.describe_congr (Graph.typeName_withoutViews _)
        (Graph.capability_withoutViews _)).symm
  mark _ := by
    change badMark s v id = badMark { s with graph := s.graph.withoutViews dropped } v id
    simp only [badMark, Graph.typeName_withoutViews, ← render_withoutViews hviews]

/-- **Views that do not matter may be dropped** anywhere in a graph. -/
theorem walk_withoutViews (hcovered : v.isHex = true → ∀ id q, dropped id = true →
      (s.graph.shape id).elements? = some q → q.bytes.isSome = true → Covered s v id q)
    (l : Layout) (n depth : Nat) (id : NodeId) :
    walk s v l n depth id =
      walk { s with graph := s.graph.withoutViews dropped } v l n depth id := by
  induction n generalizing s depth id with
  | zero => rfl
  | succ n ih =>
      refine level_congruent_of_heard (C := .equal) (heard_withoutViews s dropped id) ?_
      intro hstands
      cases hq : (s.graph.shape id).elements? with
      | none =>
          refine structural_congruent rfl (looks_withoutViews hviews hq) fun _ d child _ =>
            ⟨ih hviews hcovered d child, fun a _ => ?_⟩
          have hlocked := ih (s := s.holding [a]) (hviews.holding [a])
            (fun hv id q hdropped hq hview =>
              (hcovered hv id q hdropped (by simpa using hq) hview).holding [a]) d child
          rwa [Scene.graph_holding, Graph.withoutViews_holding] at hlocked
      | some q =>
          refine sequence_withoutViews hq (fun bytes hb => hviews id q bytes hq hb) ?_
            fun _ child _ => ih hviews hcovered _ child
          intro hv hdropped hview
          rcases hcovered hv id q hdropped hq hview with hstands' | htyped
          · simp [hstands] at hstands'
          · exact htyped

end Honest

end Dropped

/-! ### Showing views -/

theorem heard_text (s : Scene) (id : NodeId) : (heard s id).text = "" := by
  have hlogs : ∀ e ∈ (heard s id).effects, e.text? = none :=
    fun e he => Effect.text?_eq_none (heard_logs s id e he)
  rw [Trace.text, List.filterMap_eq_nil_iff.2 hlogs]
  rfl

/-- A value is written by its structure where no answer stands in for it. -/
theorem level_text_of_not_standsIn (h : v.standsIn (answer s id) = false) :
    (level s v l below locked depth id).text = (structural s v l below locked depth id).text := by
  rw [level_of_not_standsIn h, Trace.text_bind (heard_result s id), heard_text, String.empty_append]

/-- Elements that are shown stand in brackets. -/
theorem sequence_text_of_no_run (hrun : byteRun? s v q = none)
    (hitems : ∀ child ∈ q.items, (below (depth + 1) child).result.isSome = true) :
    ∃ t, (sequence s v l below depth q).text = "[" ++ t ++ "]" := by
  have hwrite (t : String) : (Trace.write t).text = t := by
    simp [Trace.text, Trace.write, Trace.emit, Effect.text?]
  obtain ⟨_, hend⟩ := Option.isSome_iff_exists.1 (spaced_isSome hitems)
  refine ⟨(spaced (below (depth + 1)) q.items).text, ?_⟩
  simp only [sequence, hrun]
  rw [Trace.text_bind rfl, Trace.text_bind hend, hwrite, hwrite, String.append_assoc]

/-- A byte by itself comes to an end under a hexadecimal verb. -/
theorem level_uint_isSome (hv : v.isHex = true) {n : UInt64} {bits : Nat}
    (hs : s.graph.shape id = .uint n bits) :
    (level s v l below locked depth id).result.isSome = true := by
  rw [level_eq, Trace.bind_of_some (heard_result s id)]
  cases hstands : v.standsIn (answer s id) with
  | true =>
      obtain ⟨t, ht⟩ := respond_of_standsIn hstands l
      rw [ht]
      rfl
  | false =>
      rw [respond_of_not_standsIn hstands]
      simp only [structural, hs]
      cases v with
      | lowerHex => rfl
      | upperHex => rfl
      | _ => simp [isHex] at hv

section Views

variable (hv : v.isHex = true) (hq : (s.graph.shape id).elements? = some q)
  (hbytes : q.bytes = some bytes)

include hv hq hbytes

/-- With a view a sequence is written as bytes. -/
theorem walk_text_of_view (hstands : v.standsIn (answer s id) = false) (l : Layout)
    (n depth : Nat) : (walk s v l (n + 1) depth id).text = v.hexBytes l bytes := by
  rw [walk, level_text_of_not_standsIn hstands, structural_of_elements hq, sequence,
    byteRun?_of_view hv hbytes]
  simp [Trace.text, Trace.write, Trace.emit, Effect.text?]

omit hbytes in
/-- Without one, and without a type that makes them bytes, its elements stand in brackets. -/
theorem walk_text_without_view (hcovered : ¬Covered s v id q)
    (hitems : ∀ item ∈ q.items, ∃ n, s.graph.shape item = .uint n 8) (l : Layout)
    (n depth : Nat) :
    ∃ t, (walk { s with graph := s.graph.withoutViews (· == id) } v l (n + 2) depth id).text =
      "[" ++ t ++ "]" := by
  have hstands : v.standsIn
      (answer { s with graph := s.graph.withoutViews (· == id) } id) = false := by
    rw [answer_withoutViews]
    simpa using fun hstands => hcovered (Or.inl hstands)
  rw [walk, level_text_of_not_standsIn hstands, structural_of_elements (elements?_withoutViews hq)]
  simp only [beq_self_eq_true, if_true]
  refine sequence_text_of_no_run (byteRun?_of_not_typed rfl ?_) fun item hitem => ?_
  · rintro ⟨first, rest, hlist, htype⟩
    exact hcovered (Or.inr ⟨first, rest, hlist, by simpa using htype⟩)
  · obtain ⟨m, hs⟩ := hitems item hitem
    have hs' : (s.graph.withoutViews (· == id)).shape item = .uint m 8 := by
      rw [shape_withoutViews_of_no_elements (by simp [hs, Shape.elements?]), hs]
    exact level_uint_isSome hv hs'

/-- **A view shows exactly where it matters**, at every depth. -/
theorem walk_text_withoutView_iff
    (hitems : ∀ item ∈ q.items, ∃ n, s.graph.shape item = .uint n 8)
    (hhonest : Walk.itemBytes? s.graph q.items = some bytes) (l : Layout) (n depth : Nat) :
    (walk { s with graph := s.graph.withoutViews (· == id) } v l (n + 2) depth id).text =
        (walk s v l (n + 2) depth id).text ↔
      Covered s v id q := by
  constructor
  · intro htext
    by_contra hcovered
    have hstands : v.standsIn (answer s id) = false := by
      simpa using fun hstands => hcovered (Or.inl hstands)
    obtain ⟨t, ht⟩ := walk_text_without_view hv hq hcovered hitems l n depth
    rw [walk_text_of_view hv hq hbytes hstands, ht] at htext
    exact hexBytes_ne_brackets v l bytes t htext.symm
  · intro hcovered
    refine congrArg Trace.text (Eq.symm ?_)
    refine level_congruent_of_heard (C := .equal) (heard_withoutViews s _ id) fun hstands => ?_
    refine sequence_withoutViews hq (fun bytes' hbytes' => ?_) (fun _ _ _ => ?_) fun hnone => ?_
    · rw [hhonest, ← hbytes, hbytes']
    · exact hcovered.resolve_left (by simp [hstands])
    · simp [byteRun?_of_view hv hbytes] at hnone

end Views

/-- **When a raw view shows under a hexadecimal verb.**  Take a sequence of integers of eight bits
with a raw view of its elements.  Without the view its text under the verb is the same exactly if an
answer of the sequence stands in for it, or if it has a first element and the configuration takes
the type of that for bytes; this is so under every layout, for the sequence as a whole and as a part
at every depth.  And where the views of a graph are honest, dropping any number of them from
sequences of that sort changes nothing in the text of any value, nor in the log. -/
theorem byte_view_shows_unless_covered (s : Scene) (v : Verb) (hv : v.isHex = true) (l : Layout) :
    (∀ id q bytes, (s.graph.shape id).elements? = some q → q.bytes = some bytes →
      (∀ item ∈ q.items, ∃ n, s.graph.shape item = .uint n 8) →
      Walk.itemBytes? s.graph q.items = some bytes →
      ((v.apply { s with graph := s.graph.withoutViews (· == id) } l id).text =
          (v.apply s l id).text ↔ Covered s v id q) ∧
      ∀ n depth,
        (walk { s with graph := s.graph.withoutViews (· == id) } v l (n + 2) depth id).text =
          (walk s v l (n + 2) depth id).text ↔ Covered s v id q) ∧
    (s.graph.HonestViews → ∀ dropped : NodeId → Bool,
      (∀ id q, dropped id = true → (s.graph.shape id).elements? = some q →
        q.bytes.isSome = true → Covered s v id q) →
      ∀ id, v.apply { s with graph := s.graph.withoutViews dropped } l id = v.apply s l id) := by
  have hpointer : v ≠ .pointer := by
    rintro rfl
    simp [isHex] at hv
  refine ⟨?_, ?_⟩
  · intro id q bytes hq hbytes hitems hhonest
    have hiff := walk_text_withoutView_iff hv hq hbytes hitems hhonest l
    refine ⟨?_, hiff⟩
    rw [apply_eq_walk hpointer, apply_eq_walk hpointer]
    simp only [fuel, Graph.size_withoutViews]
    exact hiff _ 0
  · intro hviews dropped hcovered id
    rw [apply_eq_walk hpointer, apply_eq_walk hpointer]
    simp only [fuel, Graph.size_withoutViews]
    exact (walk_withoutViews hviews (fun _ => hcovered) l _ 0 id).symm

/-- A pair of buffers with raw views, which may describe themselves; the second has no elements. -/
def buffers (description : Capability) : Graph :=
  ⟨#[{ shape := .array { items := [1, 2], capacity := 2 }, typeName := "Pair" },
     { shape := .slice (some { items := [3, 4], capacity := 2, bytes := some [1, 2] }),
       typeName := "Bytes", capability := description },
     { shape := .slice (some { items := [], capacity := 0, bytes := some [] }),
       typeName := "Bytes", capability := description },
     { shape := .uint 1 8, typeName := "u8" },
     { shape := .uint 2 8, typeName := "u8" }]⟩

theorem buffers_honest (description : Capability) : (buffers description).HonestViews := by
  intro id q bytes hq hbytes
  rcases id with _ | _ | _ | _ | _ | id
  · obtain rfl := Option.some.inj hq
    cases hbytes
  · obtain rfl := Option.some.inj hq
    obtain rfl := Option.some.inj hbytes
    rfl
  · obtain rfl := Option.some.inj hq
    obtain rfl := Option.some.inj hbytes
    rfl
  · cases hq
  · cases hq
  · cases hq

/-- The views show where nothing says that the elements are bytes; that of no elements shows even
where something does, unless a description stands in for it. -/
theorem buffers_views_show :
    let s (description : Capability) (c : Config) : Scene := ⟨buffers description, c, true⟩
    let bare (description : Capability) (c : Config) (id : NodeId) : Scene :=
      ⟨(buffers description).withoutViews (· == id), c, true⟩
    (lowerHex.apply (bare .absent {} 1) {} 1).text ≠ (lowerHex.apply (s .absent {}) {} 1).text ∧
    (lowerHex.apply (bare .absent { byteElementTypes := ["u8"] } 1) {} 1).text =
      (lowerHex.apply (s .absent { byteElementTypes := ["u8"] }) {} 1).text ∧
    (upperHex.apply (bare .absent { byteElementTypes := ["u8"] } 2) {} 2).text ≠
      (upperHex.apply (s .absent { byteElementTypes := ["u8"] }) {} 2).text ∧
    (∀ id, lowerHex.apply ⟨(buffers (.text "raw")).withoutViews fun _ => true, {}, true⟩ {} id =
      lowerHex.apply (s (.text "raw") {}) {} id) ∧
    (lowerHex.apply (s .absent {}) {} 0).text = "[0102 ]" ∧
    (lowerHex.apply (bare .absent {} 1) {} 0).text = "[[1 2] ]" := by
  intro s bare
  have hbytes (description : Capability) :
      ∀ item ∈ [3, 4], ∃ n, (buffers description).shape item = .uint n 8 := by
    intro item hitem
    simp only [List.mem_cons, List.not_mem_nil, or_false] at hitem
    rcases hitem with rfl | rfl
    · exact ⟨1, rfl⟩
    · exact ⟨2, rfl⟩
  obtain ⟨hplain, -⟩ := byte_view_shows_unless_covered (s .absent {}) lowerHex rfl {}
  obtain ⟨htyped, -⟩ := byte_view_shows_unless_covered (s .absent { byteElementTypes := ["u8"] })
    lowerHex rfl {}
  obtain ⟨hupper, -⟩ := byte_view_shows_unless_covered (s .absent { byteElementTypes := ["u8"] })
    upperHex rfl {}
  obtain ⟨-, hdescribed⟩ := byte_view_shows_unless_covered (s (.text "raw") {}) lowerHex rfl {}
  refine ⟨?_, ?_, ?_, ?_, by decide +kernel, by decide +kernel⟩
  · refine (hplain 1 _ _ rfl rfl (hbytes _) rfl).1.not.2 ?_
    rintro (h | ⟨first, rest, hlist, h⟩)
    · exact absurd h (by decide)
    · obtain ⟨rfl, -⟩ := List.cons.inj hlist
      exact absurd h (by decide)
  · refine (htyped 1 _ _ rfl rfl (hbytes _) rfl).1.2 (Or.inr ⟨3, [4], rfl, by decide⟩)
  · refine (hupper 2 _ _ rfl rfl (by simp) rfl).1.not.2 ?_
    rintro (h | ⟨first, rest, hlist, h⟩)
    · exact absurd h (by decide)
    · cases hlist
  · refine hdescribed (buffers_honest _) _ ?_
    intro id q _ hq hview
    rcases id with _ | _ | _ | _ | _ | id
    · obtain rfl := Option.some.inj hq
      simp at hview
    · exact Or.inl rfl
    · exact Or.inl rfl
    · cases hq
    · cases hq
    · cases hq

end Verb

end ValueLens
