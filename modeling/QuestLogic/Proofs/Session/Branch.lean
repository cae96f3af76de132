import QuestLogic.Proofs.Session.Event
import QuestLogic.Session.Transition

/-!
# Which branch is the last that holds

A test of branches goes through all of them, so that it finds the last that holds, that none does,
or the first that cannot be tested (`Session.lastHolding_spec`). Only a flag that cannot be read
keeps a branch from being tested (`Session.lastHolding_error`).
-/

namespace QuestLogic.Session

variable {s : Session} {target : Target} {e : Fault}

/-- All of the branches can be tested, and none holds. -/
def NoneHolds (s : Session) (branches : List Branch) : Prop :=
  ∀ b ∈ branches, s.holds b.choice = .ok false

/-- All of the branches can be tested, and the last that holds leads to the target. -/
inductive LastHolds (s : Session) : List Branch → Target → Prop
  | here {b : Branch} {rest : List Branch} (h : s.holds b.choice = .ok true)
    (hrest : s.NoneHolds rest) : LastHolds s (b :: rest) b.target
  | later {b : Branch} {rest : List Branch} {holds : Bool} {target : Target}
    (h : s.holds b.choice = .ok holds) (hrest : LastHolds s rest target) :
    LastHolds s (b :: rest) target

/-- One of the branches cannot be tested, and those before it can. -/
inductive Untestable (s : Session) : List Branch → Fault → Prop
  | here {b : Branch} {rest : List Branch} {e : Fault} (h : s.holds b.choice = .error e) :
    Untestable s (b :: rest) e
  | later {b : Branch} {rest : List Branch} {holds : Bool} {e : Fault}
    (h : s.holds b.choice = .ok holds) (hrest : Untestable s rest e) : Untestable s (b :: rest) e

theorem lastHolding_cons_error {b : Branch} (h : s.holds b.choice = .error e)
    (rest : List Branch) : s.lastHolding (b :: rest) = .error e := by
  rw [lastHolding, h]
  rfl

theorem lastHolding_cons_ok {b : Branch} {holds : Bool} (h : s.holds b.choice = .ok holds)
    (rest : List Branch) : s.lastHolding (b :: rest) =
      (s.lastHolding rest).map (·.or (if holds then some b.target else none)) := by
  rw [lastHolding, h, Except.ok_bind]
  cases s.lastHolding rest <;> rfl

theorem NoneHolds.lastHolding {branches : List Branch} (h : s.NoneHolds branches) :
    s.lastHolding branches = .ok none := by
  induction branches with
  | nil => rfl
  | cons b rest ih =>
    obtain ⟨hb, hrest⟩ := List.forall_mem_cons.1 h
    rw [lastHolding_cons_ok hb, ih hrest]
    rfl

theorem LastHolds.lastHolding {branches : List Branch} (h : s.LastHolds branches target) :
    s.lastHolding branches = .ok (some target) := by
  induction h with
  | here hb hrest =>
    rw [lastHolding_cons_ok hb, hrest.lastHolding]
    rfl
  | later hb _ ih =>
    rw [lastHolding_cons_ok hb, ih]
    rfl

theorem Untestable.lastHolding {branches : List Branch} (h : s.Untestable branches e) :
    s.lastHolding branches = .error e := by
  induction h with
  | here hb => exact lastHolding_cons_error hb _
  | later hb _ ih =>
    rw [lastHolding_cons_ok hb, ih]
    rfl

/-- What the test of the branches gives is what it should. -/
theorem lastHolding_spec (s : Session) (branches : List Branch) :
    match s.lastHolding branches with
    | .ok none => s.NoneHolds branches
    | .ok (some target) => s.LastHolds branches target
    | .error e => s.Untestable branches e := by
  induction branches with
  | nil => exact fun b hb => absurd hb List.not_mem_nil
  | cons b rest ih =>
    rcases hb : s.holds b.choice with e | holds
    · rw [lastHolding_cons_error hb]
      exact .here hb
    · rw [lastHolding_cons_ok hb]
      rcases hrest : s.lastHolding rest with e | _ | target
      all_goals rw [hrest] at ih
      · exact .later hb ih
      · cases holds with
        | false => exact List.forall_mem_cons.2 ⟨hb, ih⟩
        | true => exact .here hb ih
      · exact .later hb ih

/-- A snippet without branches leads nowhere. -/
theorem LastHolds.ne_nil {branches : List Branch} (h : s.LastHolds branches target) :
    branches ≠ [] := by
  cases h <;> exact List.cons_ne_nil _ _

theorem Untestable.ne_nil {branches : List Branch} (h : s.Untestable branches e) :
    branches ≠ [] := by
  cases h <;> exact List.cons_ne_nil _ _

/-- A branch that holds leads where one of the branches does. -/
theorem LastHolds.exists_mem {branches : List Branch} (h : s.LastHolds branches target) :
    ∃ b ∈ branches, b.target = target := by
  induction h with
  | here _ _ => exact ⟨_, List.mem_cons_self, rfl⟩
  | later _ _ ih =>
    obtain ⟨b, hb, htarget⟩ := ih
    exact ⟨b, List.mem_cons_of_mem _ hb, htarget⟩

theorem Untestable.isCutShort {branches : List Branch} (h : s.Untestable branches e) :
    s.IsCutShort := by
  induction h with
  | here hb => exact holds_error hb
  | later _ _ ih => exact ih

/-- Only a flag that cannot be read keeps branches from being tested. -/
theorem lastHolding_error {branches : List Branch} (h : s.lastHolding branches = .error e) :
    s.IsCutShort := by
  have hspec := lastHolding_spec s branches
  rw [h] at hspec
  exact hspec.isCutShort

end QuestLogic.Session
