/-
**A render that ends at all ends on its own fuel.**

A graph that is not grounded may still be rendered in finite time: a container that is a part of
itself may stand where nobody looks, or describe itself.  For grounded graphs the fuel of a render
is counted from the ranks of the nodes; here nothing is known but that the walk ends on some amount
of fuel, however large.

Where no depth limit is set, whether a walk ends does not depend on the depth.  So a walk that
comes to a value again, with the same path, the same privacy and the same flags, is no nearer to
its end, and on the way down to the last level that needs its fuel no such point comes twice.
There are eight points for each node and path, and each chain on the way takes up room of the
graph.

Main definitions:

* `ValueLens.Walk.Ends` — a walk that comes to an end from a state;
* `ValueLens.Walk.Point` — what the end of a walk depends on, besides the path.

Main results:

* `ValueLens.Walk.ends_congr` — without a limit the depth does not matter;
* `ValueLens.Walk.exists_below_of_last` — the last unit of fuel is needed below;
* `ValueLens.Walk.ends_fuel_of_ends` — **a walk that ends on some fuel ends on the fuel of its
  graph**, and `ValueLens.Walk.present_eq_of_ends` for renders;
* `ValueLens.Scene.dumpText_isSome_iff`, `ValueLens.Scene.render_isSome_iff` — texts are produced
  where walks end.
-/
import Mathlib.Data.Fintype.Card
import Mathlib.Data.Fintype.Prod
import ValueLens.Proofs.Fuel
import ValueLens.Proofs.KindredWalks
import ValueLens.Proofs.Termination

set_option relaxedAutoImplicit false
set_option autoImplicit false

namespace ValueLens

open Render

namespace Walk

/-- A walk that comes to an end from a state. -/
def Ends (s : Scene) (mode : Mode) (n : Nat) (id : NodeId) (st : RenderState) : Prop :=
  (walk s n mode id st).result.isSome = true

variable {s : Scene} {mode : Mode}

/-- A walk that ends does the same on more fuel. -/
theorem Ends.walk_eq {n m : Nat} {id : NodeId} {st : RenderState} (h : Ends s mode n id st)
    (hle : n ≤ m) : walk s n mode id st = walk s m mode id st := by
  refine patience_strict.eq_of_meets (walk_patient s hle mode id) ?_
  rw [patience_excused, h]
  simp

theorem Ends.mono {n m : Nat} {id : NodeId} {st : RenderState} (h : Ends s mode n id st)
    (hle : n ≤ m) : Ends s mode m id st := by
  rwa [Ends, ← h.walk_eq hle]

theorem not_ends_zero (id : NodeId) (st : RenderState) : ¬Ends s mode 0 id st := by
  simp [Ends, walk]

/-- A number without a node needs one level. -/
theorem ends_one_of_size_le {id : NodeId} (h : s.graph.size ≤ id) (st : RenderState) :
    Ends s mode 1 id st := by
  have hshape : s.graph.shape id = .invalid := Graph.shape_of_size_le h
  obtain ⟨-, u, σ, hr, -⟩ := Mode.quiet_invalid s.config mode st
  have hstep : (Render.step (.visited id .notAsked) st).result = some ((), st) := rfl
  simp only [Ends, walk, level, hshape]
  rw [run_bind_of_some hstep, hr]
  rfl

/-- **The last unit of fuel is needed below.**  If a walk needs its last unit, then so does the walk
of something below its value, on one unit less. -/
theorem exists_below_of_last (hecho : ¬(s.config.sortKeys = true ∧ s.config.echoKeys = true))
    {n : Nat} {id : NodeId} {st : RenderState} (hend : Ends s mode (n + 2) id st)
    (hstop : ¬Ends s mode (n + 1) id st) :
    ∃ child σ, Below s id st.frame child σ.frame ∧ Ends s mode (n + 1) child σ ∧
      ¬Ends s mode n child σ := by
  classical
  by_contra hno
  have hearly {child : NodeId} {σ : RenderState} (hbelow : Below s id st.frame child σ.frame)
      (h : Ends s mode (n + 1) child σ) : walk s n mode child σ = walk s (n + 1) mode child σ := by
    have hend : Ends s mode n child σ := by
      by_contra hstop
      exact hno ⟨child, σ, hbelow, h, hstop⟩
    exact hend.walk_eq (Nat.le_succ n)
  -- a visit that has less fuel below the value, and elsewhere as much as before
  let visit : Visit := fun m i σ =>
    if Below s id st.frame i σ.frame then walk s n m i σ else walk s (n + 1) m i σ
  have hmeets (child : NodeId) : patience.Meets (walk s (n + 1) mode child) (visit mode child) := by
    rintro σ _ rfl
    by_cases hend : Ends s mode (n + 1) child σ
    · have hsame : visit mode child σ = walk s (n + 1) mode child σ := by
        by_cases hbelow : Below s id st.frame child σ.frame
        · simp only [visit, if_pos hbelow]
          exact hearly hbelow hend
        · simp only [visit, if_neg hbelow]
      rw [hsame]
      exact patience_strict.meets_self _ σ σ rfl
    · exact Or.inl (by simpa [Ends] using hend)
  have hlevel : level s (keyTexts s (n + 1)) (walk s (n + 1)) mode id st =
      level s (keyTexts s (n + 1)) visit mode id st := by
    refine patience_strict.eq_of_meets ((patience_fits s mode).level_meets hmeets
      (fun held key => Accord.Linked.refl (keyTexts_stepless s (n + 1) held key)) id) ?_
    have hend' :
        (level s (keyTexts s (n + 1)) (walk s (n + 1)) mode id st).result.isSome = true :=
      hend
    rw [patience_excused, hend']
    simp
  have hbelow : level s (keyTexts s (n + 1)) visit mode id st =
      level s (keyTexts s n) (walk s n) mode id st := by
    have hkeeps : (Bond.same False).Keeps st.frame (level s (keyTexts s (n + 1)) visit mode id)
        (level s (keyTexts s n) (walk s n) mode id) := by
      refine level_keeps ?_ (fun hsort hkeys => absurd ⟨hsort, hkeys⟩ hecho) fun _ a _ => rfl
      rintro child g hbelow σ rfl
      have hvisit : visit mode child σ = walk s n mode child σ := by
        simp only [visit, if_pos hbelow]
      rw [hvisit]
      refine ⟨⟨rfl, rfl, False.elim⟩, fun u τ hτ => ⟨rfl, walk_frame s n mode child hτ⟩⟩
    exact (hkeeps st rfl).1.of_same
  refine hstop ?_
  rw [Ends, walk_succ, ← hbelow, ← hlevel]
  exact hend

/-- The likeness that asks for nothing. -/
def anything : Likeness where
  Alike _ _ := True
  alike_nil := trivial
  alike_append _ _ := trivial
  alike_write _ := trivial
  alike_log _ := trivial
  alike_step _ _ := trivial

/-- What the end of a walk depends on, besides the path and the locks that are held: the node, the
flags and the privacy. -/
abbrev Point (g : Graph) : Type := Fin g.size × Bool × Bool × Bool

/-- The point of a walk at a node. -/
def Point.of {g : Graph} {id : NodeId} (h : id < g.size) (st : RenderState) : Point g :=
  (⟨id, h⟩, st.skipType, st.skipIndent, st.inPrivate)

theorem Point.card_le {g : Graph} (seen : Finset (Point g)) : seen.card ≤ 8 * g.size := by
  have hcard : Fintype.card (Point g) = 8 * g.size := by
    simp only [Fintype.card_prod, Fintype.card_fin, Fintype.card_bool]
    omega
  exact hcard ▸ Finset.card_le_univ seen

section Unlimited

variable (hlimit : s.config.maxDepth = 0)
  (hecho : ¬(s.config.sortKeys = true ∧ s.config.echoKeys = true))

include hlimit hecho

/-- **Without a limit the depth does not matter** for whether a walk ends. -/
theorem ends_congr (n : Nat) (id : NodeId) (st : RenderState) (depth : Nat) :
    Ends s mode n id { st with depth := depth } ↔ Ends s mode n id st := by
  have hkin : Kin anything (fun a => a) (fun _ _ => True) (fun _ _ => True) s s :=
    { config_eq := rfl
      size_eq := rfl
      resembles := fun id => .refl_of_id _
      typeName_eq := fun _ => rfl
      view_eq := fun h₁ h₂ => by rw [Option.some.inj (h₁.symm.trans h₂)]
      injective := fun _ _ h => h
      discreet := Or.inl fun _ => rfl
      deep_zero := trivial
      deep_succ := fun _ _ => trivial
      deep_pred := fun _ => trivial
      deep_limit := fun _ => by simp [Config.atLimit, hlimit]
      alike_margin := fun _ _ _ _ _ => trivial
      alike_buffer := fun _ _ => trivial
      admits_outlet := fun _ _ => trivial }
  have hwalk : anything.Tied (fun a => a) (fun _ _ => True) st.inPrivate (walk s n mode id)
      (walk s n mode id) :=
    hkin.walk_tied (fun _ => rfl) rfl (fun hsort hkeys => absurd ⟨hsort, hkeys⟩ hecho) n
      (Or.inl fun _ => rfl) trivial
  have hbeside : st.Beside (fun a => a) (fun _ _ => True) st.inPrivate { st with depth := depth } :=
    ⟨depth, by simp, rfl, trivial⟩
  rw [Ends, Ends, (hwalk st _ hbeside).isSome_eq]

/-- **No point comes twice on the way down.**  A walk that needs its last unit of fuel, below points
of the same path that need more, has no more fuel than there are points and paths left. -/
theorem last_le (n : Nat) (id : NodeId) (st : RenderState) (seen : Finset (Point s.graph))
    (hend : Ends s mode (n + 1) id st) (hstop : ¬Ends s mode n id st)
    (hseen : ∀ i (hi : i < s.graph.size) σ, σ.path = st.path → σ.held = st.held →
      Point.of hi σ ∈ seen → ¬Ends s mode (n + 1) i σ) :
    n + 1 + seen.card ≤ 8 * s.graph.size * (s.graph.room st.path + 1) + 1 := by
  induction n generalizing id st seen with
  | zero =>
      have hcard := Point.card_le seen
      rw [Nat.mul_add_one]
      omega
  | succ n ih =>
      have hid : id < s.graph.size := by
        by_contra hge
        have hone : Ends s mode 1 id st := ends_one_of_size_le (Nat.le_of_not_lt hge) st
        exact hstop (hone.mono (by omega))
      have hnew : Point.of hid st ∉ seen := fun hmem => hseen id hid st rfl rfl hmem hend
      have hcard : seen.card + 1 ≤ 8 * s.graph.size := by
        rw [← Finset.card_insert_of_notMem hnew]
        exact Point.card_le _
      obtain ⟨child, σ, hbelow, hend', hstop'⟩ := exists_below_of_last hecho hend hstop
      rcases hbelow.part_or_room with ⟨-, hpath, hheld⟩ | hroom
      · -- the path and the locks are the same, and this point has been seen
        have hpath : σ.path = st.path := hpath
        have hheld : σ.held = st.held := hheld
        have hbound := ih child σ (insert (Point.of hid st) seen) hend' hstop' ?_
        · rw [Finset.card_insert_of_notMem hnew, hpath] at hbound
          omega
        · intro i hi τ hτ hlocks hmem
          rcases Finset.mem_insert.1 hmem with heq | hmem
          · simp only [Point.of, Prod.mk.injEq, Fin.mk.injEq] at heq
            obtain ⟨rfl, htype, hindent, hprivate⟩ := heq
            have hsame : τ = { st with depth := τ.depth } := by
              cases τ
              simp_all
            rw [hsame, ends_congr hlimit hecho]
            exact hstop
          · intro h
            exact hseen i hi τ (hτ.trans hpath) (hlocks.trans hheld) hmem (h.mono (by omega))
      · -- a chain has taken up room, which is enough for all points of this path
        have hbound := ih child σ ∅ hend' hstop' (by simp)
        have hround : 8 * s.graph.size * (s.graph.room σ.path + 1) ≤
            8 * s.graph.size * s.graph.room st.path := Nat.mul_le_mul_left _ hroom
        rw [Nat.mul_add_one]
        simp only [Finset.card_empty] at hbound
        omega

/-- **A walk that ends at all ends on a level for each point of each path.** -/
theorem ends_points_of_ends {n : Nat} {id : NodeId} {st : RenderState} (h : Ends s mode n id st) :
    Ends s mode (8 * s.graph.size * (s.graph.room st.path + 1) + 1) id st := by
  induction n with
  | zero => exact absurd h (not_ends_zero id st)
  | succ n ih =>
      by_cases hless : Ends s mode n id st
      · exact ih hless
      · have hbound := last_le hlimit hecho n id st ∅ h hless (by simp)
        exact h.mono (Nat.le_trans (Nat.le_add_right _ _) hbound)

/-- **A walk that ends on some fuel ends on the fuel of its graph.** -/
theorem ends_fuel_of_ends {n : Nat} {id : NodeId} {st : RenderState} (h : Ends s mode n id st) :
    Ends s mode (fuel s.graph) id st := by
  refine (ends_points_of_ends hlimit hecho h).mono ?_
  have hroom := s.graph.room_le_size st.path
  have hround : 8 * s.graph.size * (s.graph.room st.path + 1) ≤
      8 * s.graph.size * (s.graph.size + 1) := Nat.mul_le_mul_left _ (by omega)
  calc 8 * s.graph.size * (s.graph.room st.path + 1) + 1
      ≤ 8 * s.graph.size * (s.graph.size + 1) + 1 := Nat.add_le_add_right hround 1
    _ ≤ (s.graph.size + 2) ^ 3 * 2 := by nlinarith [sq_nonneg (s.graph.size : Int)]
    _ ≤ (s.graph.size + 2) ^ 3 * (s.graph.size + 2) :=
        Nat.mul_le_mul_left _ (Nat.le_add_left 2 _)
    _ = fuel s.graph := rfl

/-- **A render without a limit does what its walk does on any fuel that is enough.** -/
theorem present_eq_of_ends {n : Nat} {id : NodeId} (h : Ends s mode n id {}) :
    s.present mode id = fromStart (walk s n mode id) := by
  have hfuel : s.fuel = fuel s.graph := by simp [Scene.fuel, hlimit]
  have hend : Ends s mode s.fuel id {} := by
    rw [hfuel]
    exact ends_fuel_of_ends hlimit hecho h
  refine fromStart_congr ?_
  rcases Nat.le_total s.fuel n with hle | hle
  · exact hend.walk_eq hle
  · exact (h.walk_eq hle).symm

end Unlimited

end Walk

/-! ### Renders that end -/

namespace Scene

theorem present_isSome_iff {s : Scene} {mode : Mode} {id : NodeId} :
    (s.present mode id).result.isSome = true ↔ Walk.Ends s mode s.fuel id {} := by
  simp [present, Walk.Ends]

theorem dumpText_isSome_iff {s : Scene} {ids : List NodeId} :
    (s.dumpText ids).result.isSome = true ↔ ∀ id ∈ ids, Walk.Ends s .dump s.fuel id {} := by
  have hdump : (s.dumpText ids).result.isSome = (s.dump ids).result.isSome := by
    simp [dumpText, Trace.captured]
  rw [hdump, dump_isSome_iff]
  simp only [present_isSome_iff]

theorem render_isSome_iff {s : Scene} {types details : Bool} {id : NodeId} :
    (s.render types details id).result.isSome = true ↔
      Walk.Ends s (.compact types details) s.fuel id {} := by
  have hrender : (s.render types details id).result.isSome =
      (s.present (.compact types details) id).result.isSome := by
    simp [render, Trace.captured]
  rw [hrender, present_isSome_iff]

end Scene

end ValueLens
