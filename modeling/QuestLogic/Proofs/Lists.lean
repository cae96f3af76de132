import Mathlib.Data.List.Basic
import Mathlib.Data.List.Forall2
import Mathlib.Tactic.SplitIfs

/-!
# Lists

What is said of lists in more than one place: what a change of one element leaves of the others, and
in how many ways a list can be split.
-/

namespace QuestLogic

/-- A change of one element that keeps what a function makes of it. -/
theorem map_modify {α β : Type} {g : α → β} {f : α → α} (hf : ∀ x, g (f x) = g x) (xs : List α)
    (i : Nat) : (xs.modify i f).map g = xs.map g := by
  refine List.ext_getElem? fun j => ?_
  rw [List.getElem?_map, List.getElem?_map, List.getElem?_modify]
  rcases xs[j]? with _ | x
  · rfl
  · split_ifs
    · exact congrArg some (hf x)
    · rfl

/-- What holds of every element of a list holds after a change of one of them that keeps it. -/
theorem forall_mem_modify {α : Type} {Q : α → Prop} {xs : List α} {i : Nat} {f : α → α}
    (h : ∀ x ∈ xs, Q x) (hf : ∀ x, xs[i]? = some x → Q x → Q (f x)) :
    ∀ x ∈ xs.modify i f, Q x := by
  intro x hx
  obtain ⟨j, hj, rfl⟩ := List.mem_iff_getElem.1 hx
  rw [List.length_modify] at hj
  rw [List.getElem_modify]
  split_ifs with hij
  · subst hij
    exact hf _ (List.getElem?_eq_getElem hj) (h _ (List.getElem_mem hj))
  · exact h _ (List.getElem_mem hj)

/-- A part of a total is no more than the total. -/
theorem le_foldr_of_mem {α : Type} (f : α → Nat) {xs : List α} {x : α} (h : x ∈ xs) :
    f x ≤ xs.foldr (fun y n => f y + n) 0 := by
  induction xs with
  | nil => exact absurd h List.not_mem_nil
  | cons y rest ih =>
    rw [List.foldr_cons]
    rcases List.mem_cons.1 h with rfl | h
    · exact Nat.le_add_right _ _
    · exact Nat.le_trans (ih h) (Nat.le_add_left _ _)

/-- A total of parts none of which is more than a bound. -/
theorem foldr_le_length_mul {α : Type} {f : α → Nat} {n : Nat} {xs : List α}
    (h : ∀ x ∈ xs, f x ≤ n) : xs.foldr (fun y m => f y + m) 0 ≤ xs.length * n := by
  induction xs with
  | nil => exact Nat.zero_le _
  | cons y rest ih =>
    obtain ⟨hy, hrest⟩ := List.forall_mem_cons.1 h
    rw [List.foldr_cons, List.length_cons, Nat.succ_mul, Nat.add_comm]
    exact Nat.add_le_add (ih hrest) hy

/-- Lists that are related element by element to one in between are so to each other. -/
theorem forall₂_trans {α β γ : Type} {R : α → β → Prop} {S : β → γ → Prop} {T : α → γ → Prop}
    {xs : List α} {ys : List β} {zs : List γ} (h : List.Forall₂ R xs ys)
    (h' : List.Forall₂ S ys zs) (hT : ∀ {x y z}, R x y → S y z → T x z) :
    List.Forall₂ T xs zs := by
  induction h generalizing zs with
  | nil =>
    cases h'
    exact .nil
  | cons hR _ ih =>
    rcases h' with - | ⟨hS, hrest⟩
    exact .cons (hT hR hS) (ih hrest)

/-- A list is split in one way only at the first element that has a property. -/
theorem eq_of_split_at_first {α : Type} {P : α → Prop} {front front' back back' : List α} {a a' : α}
    (h : front ++ a :: back = front' ++ a' :: back') (hfront : ∀ x ∈ front, ¬P x) (ha : P a)
    (hfront' : ∀ x ∈ front', ¬P x) (ha' : P a') : front = front' ∧ a = a' ∧ back = back' := by
  classical
  have hprefix : ∀ {front back : List α} {a : α}, (∀ x ∈ front, ¬P x) → P a →
      (front ++ a :: back).takeWhile (¬P ·) = front := by
    intro front back a hfront ha
    rw [List.takeWhile_append_of_pos (by simpa using hfront), List.takeWhile_cons_of_neg (by simpa),
      List.append_nil]
  have hsame : front = front' := by rw [← hprefix hfront ha, h, hprefix hfront' ha']
  subst hsame
  exact ⟨rfl, List.cons.inj (List.append_cancel_left h)⟩

end QuestLogic
