/-
**Documents that are the same.**

Two documents agree if they are built alike from agreeing numbers, equal texts and equal truth
values.  The members of an object have no order of their own: they agree in some order, name by
name.  Agreement is symmetric and transitive; for the members this is so because rearranging one
side can be exchanged for rearranging the other.

Main definitions:

* `ValueLens.Json.Value.Finite` — documents without infinities and NaNs;
* `ValueLens.Json.Value.Agree` — documents that are the same up to the representation of numbers and
  the order of members.

Main results:

* `ValueLens.Json.Value.agreeMembers_perm` — rearranging goes through agreement;
* `ValueLens.Json.Value.Agree.symm`, `ValueLens.Json.Value.Agree.trans` — **agreement is symmetric
  and transitive**.
-/
import Mathlib.Data.List.Perm.Basic
import ValueLens.Json.Value
import ValueLens.Proofs.NumberText

set_option relaxedAutoImplicit false
set_option autoImplicit false

namespace ValueLens.Json.Value

/-! ### Finite documents -/

mutual

/-- **All numbers of a document are finite.** -/
def Finite : Value → Prop
  | .null => True
  | .bool _ => True
  | .number n => n.Finite
  | .text _ => True
  | .array items => FiniteItems items
  | .object members => FiniteMembers members

/-- All numbers of some documents are finite. -/
def FiniteItems : List Value → Prop
  | [] => True
  | v :: rest => v.Finite ∧ FiniteItems rest

/-- All numbers of some members are finite. -/
def FiniteMembers : List (String × Value) → Prop
  | [] => True
  | (_, v) :: rest => v.Finite ∧ FiniteMembers rest

end

theorem finiteMembers_iff {members : List (String × Value)} :
    FiniteMembers members ↔ ∀ m ∈ members, m.2.Finite := by
  induction members with
  | nil => simp [FiniteMembers]
  | cons m members ih => simp [FiniteMembers, ih]

/-! ### Agreement -/

mutual

/-- **Documents that are the same** up to the representation of numbers and the order of members. -/
def Agree : Value → Value → Prop
  | .null, .null => True
  | .bool x, .bool y => x = y
  | .number m, .number n => m.Agree n
  | .text s, .text t => s = t
  | .array xs, .array ys => AgreeItems xs ys
  | .object xs, .object ys => ∃ zs, AgreeMembers xs zs ∧ zs.Perm ys
  | _, _ => False

/-- Item by item. -/
def AgreeItems : List Value → List Value → Prop
  | [], [] => True
  | x :: xs, y :: ys => x.Agree y ∧ AgreeItems xs ys
  | _, _ => False

/-- Member by member, with the same names. -/
def AgreeMembers : List (String × Value) → List (String × Value) → Prop
  | [], [] => True
  | (n, x) :: xs, (m, y) :: ys => n = m ∧ x.Agree y ∧ AgreeMembers xs ys
  | _, _ => False

end

theorem agreeItems_iff {xs ys : List Value} : AgreeItems xs ys ↔ List.Forall₂ Agree xs ys := by
  induction xs generalizing ys with
  | nil => cases ys <;> simp [AgreeItems]
  | cons x xs ih => cases ys <;> simp [AgreeItems, ih]

theorem agreeMembers_iff {xs ys : List (String × Value)} :
    AgreeMembers xs ys ↔ List.Forall₂ (fun p q => p.1 = q.1 ∧ p.2.Agree q.2) xs ys := by
  induction xs generalizing ys with
  | nil => cases ys <;> simp [AgreeMembers]
  | cons x xs ih => cases ys <;> simp [AgreeMembers, ih, and_assoc]

/-- **Rearranging goes through agreement.** -/
theorem agreeMembers_perm {xs ys zs : List (String × Value)} (hp : xs.Perm ys)
    (h : AgreeMembers ys zs) : ∃ ws, AgreeMembers xs ws ∧ ws.Perm zs := by
  obtain ⟨ws, hws, hperm⟩ := List.perm_comp_forall₂ hp (agreeMembers_iff.1 h)
  exact ⟨ws, agreeMembers_iff.2 hws, hperm⟩

mutual

/-- **Agreement is symmetric.** -/
theorem Agree.symm : ∀ {a b : Value}, a.Agree b → b.Agree a
  | .null, b, h => by
      cases b <;> simp_all [Agree]
  | .bool x, b, h => by
      cases b <;> simp_all [Agree]
  | .number m, b, h => by
      cases b <;> simp_all [Agree, Number.Agree]
  | .text s, b, h => by
      cases b <;> simp_all [Agree]
  | .array xs, b, h => by
      cases b with
      | array ys =>
          simp only [Agree] at h ⊢
          exact agreeItems_symm h
      | _ => simp [Agree] at h
  | .object xs, b, h => by
      cases b with
      | object ys =>
          simp only [Agree] at h ⊢
          obtain ⟨zs, hzs, hperm⟩ := h
          exact agreeMembers_perm hperm.symm (agreeMembers_symm hzs)
      | _ => simp [Agree] at h

theorem agreeItems_symm : ∀ {xs ys : List Value}, AgreeItems xs ys → AgreeItems ys xs
  | [], [], _ => trivial
  | x :: xs, y :: ys, h => by
      simp only [AgreeItems] at h ⊢
      exact ⟨h.1.symm, agreeItems_symm h.2⟩
  | [], _ :: _, h => by simp [AgreeItems] at h
  | _ :: _, [], h => by simp [AgreeItems] at h

theorem agreeMembers_symm :
    ∀ {xs ys : List (String × Value)}, AgreeMembers xs ys → AgreeMembers ys xs
  | [], [], _ => trivial
  | (n, x) :: xs, (m, y) :: ys, h => by
      simp only [AgreeMembers] at h ⊢
      exact ⟨h.1.symm, h.2.1.symm, agreeMembers_symm h.2.2⟩
  | [], _ :: _, h => by simp [AgreeMembers] at h
  | _ :: _, [], h => by simp [AgreeMembers] at h

end

mutual

/-- **Agreement is transitive.** -/
theorem Agree.trans : ∀ {a b c : Value}, a.Agree b → b.Agree c → a.Agree c
  | .null, b, c, h, h' => by
      cases b <;> cases c <;> simp_all [Agree]
  | .bool x, b, c, h, h' => by
      cases b <;> cases c <;> simp_all [Agree]
  | .number m, b, c, h, h' => by
      cases b <;> cases c <;> simp_all [Agree, Number.Agree]
  | .text s, b, c, h, h' => by
      cases b <;> cases c <;> simp_all [Agree]
  | .array xs, b, c, h, h' => by
      cases b with
      | array ys =>
          cases c with
          | array zs =>
              simp only [Agree] at h h' ⊢
              exact agreeItems_trans h h'
          | _ => simp [Agree] at h'
      | _ => simp [Agree] at h
  | .object xs, b, c, h, h' => by
      cases b with
      | object ys =>
          cases c with
          | object zs =>
              simp only [Agree] at h h' ⊢
              obtain ⟨us, hus, husys⟩ := h
              obtain ⟨vs, hvs, hvszs⟩ := h'
              obtain ⟨ws, hws, hwsvs⟩ := agreeMembers_perm husys hvs
              exact ⟨ws, agreeMembers_trans hus hws, hwsvs.trans hvszs⟩
          | _ => simp [Agree] at h'
      | _ => simp [Agree] at h

theorem agreeItems_trans :
    ∀ {xs ys zs : List Value}, AgreeItems xs ys → AgreeItems ys zs → AgreeItems xs zs
  | [], ys, zs, h, h' => by
      cases ys <;> cases zs <;> simp_all [AgreeItems]
  | x :: xs, ys, zs, h, h' => by
      cases ys <;> cases zs <;> simp only [AgreeItems] at h h' ⊢
      exact ⟨h.1.trans h'.1, agreeItems_trans h.2 h'.2⟩

theorem agreeMembers_trans :
    ∀ {xs ys zs : List (String × Value)},
      AgreeMembers xs ys → AgreeMembers ys zs → AgreeMembers xs zs
  | [], ys, zs, h, h' => by
      cases ys <;> cases zs <;> simp_all [AgreeMembers]
  | (n, x) :: xs, ys, zs, h, h' => by
      cases ys <;> cases zs <;> simp only [AgreeMembers] at h h' ⊢
      exact ⟨h.1.trans h'.1, h.2.1.trans h'.2.1, agreeMembers_trans h.2.2 h'.2.2⟩

end

end ValueLens.Json.Value
