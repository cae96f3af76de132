import QuestLogic.Proofs.Session.Action

/-!
# Chains as a recursion

To visit a snippet is to carry out its actions and then to test its branches; the snippet that the
last branch that holds leads to is visited next, until there is none (`Session.Recounts`). A chain
comes to the same end by the same visits, unless it is cut short because it has come to a further
snippet with branches after so many visits (`Session.run_chain_iff`).
-/

namespace QuestLogic.Session

variable {s t u : Session} {d : DialogStore} {snippet : Snippet} {target next : Target} {e : Fault}

/-! ## Visits -/

/-- To visit the snippet under a target leads on to another target. -/
structure Moves (d : DialogStore) (snippet : Snippet) (target : Target) (s : Session)
    (next : Target) (t : Session) : Prop where
  get : d.get target = .ok snippet
  perform : (performAll snippet.actions).run s = (.ok (), t)
  leads : t.LastHolds snippet.branches next

/-- The visits that lead from one target to another, with the snippets that are visited. -/
inductive Passes (d : DialogStore) :
    List Snippet → Target → Session → Target → Session → Prop
  | refl (target : Target) (s : Session) : Passes d [] target s target s
  | step {snippet : Snippet} {visited : List Snippet} {target next last : Target}
    {s t u : Session} (h : Moves d snippet target s next t)
    (hrest : Passes d visited next t last u) : Passes d (snippet :: visited) target s last u

/-- All visits from a target to the end, with the snippets that are visited, how it ends and the
session that is left. -/
inductive Recounts (d : DialogStore) :
    List Snippet → Target → Session → Except Fault Unit → Session → Prop
  /-- There is no snippet to be visited. -/
  | missing {target : Target} {e : Fault} (s : Session) (h : d.get target = .error e) :
    Recounts d [] target s (.error e) s
  /-- A fault of the save image cuts the actions short. -/
  | interrupted {snippet : Snippet} {target : Target} {s t : Session} {e : Fault}
    (h : d.get target = .ok snippet)
    (hperform : (performAll snippet.actions).run s = (.error e, t)) :
    Recounts d [snippet] target s (.error e) t
  /-- Nor can branches be tested that ask for what the image does not hold. -/
  | untestable {snippet : Snippet} {target : Target} {s t : Session} {e : Fault}
    (h : d.get target = .ok snippet)
    (hperform : (performAll snippet.actions).run s = (.ok (), t))
    (htest : t.Untestable snippet.branches e) : Recounts d [snippet] target s (.error e) t
  | ends {snippet : Snippet} {target : Target} {s t : Session} (h : d.get target = .ok snippet)
    (hperform : (performAll snippet.actions).run s = (.ok (), t))
    (htest : t.NoneHolds snippet.branches) : Recounts d [snippet] target s (.ok ()) t
  | step {snippet : Snippet} {visited : List Snippet} {target next : Target} {s t u : Session}
    {r : Except Fault Unit} (h : Moves d snippet target s next t)
    (hrest : Recounts d visited next t r u) : Recounts d (snippet :: visited) target s r u

/-- Visits every snippet in the same way, until the end or until a snippet with branches comes after
the visits that are left. -/
def visitFrom (d : DialogStore) (first : Target) : Nat → Target → Step Session Unit
  | 0, target => do
    let snippet ← Step.view fun _ => d.get target
    if snippet.branches.isEmpty then performAll snippet.actions else throw (.endlessChain first)
  | left + 1, target => do
    let snippet ← Step.view fun _ => d.get target
    performAll snippet.actions
    match ← Step.view (·.lastHolding snippet.branches) with
    | none => pure ()
    | some next => visitFrom d first left next

/-! ## Visits until a bound -/

/-- A snippet that is not there is missed whatever number of visits is left. -/
theorem run_visitFrom_missing (h : d.get target = .error e) (first : Target) (left : Nat)
    (s : Session) : (visitFrom d first left target).run s = (.error e, s) := by
  cases left <;> exact Step.run_bind_error (run_get_missing h s) _

/-- A visit to a snippet without branches is to carry out its actions. -/
theorem run_visitFrom_of_branches (h : d.get target = .ok snippet) (hnil : snippet.branches = [])
    (first : Target) (left : Nat) (s : Session) :
    (visitFrom d first left target).run s = (performAll snippet.actions).run s := by
  cases left with
  | zero =>
    rw [visitFrom, Step.run_bind_ok (run_get_snippet h s), hnil]
    rfl
  | succ left =>
    rw [visitFrom, Step.run_bind_ok (run_get_snippet h s), hnil, Step.run_bind]
    rcases (performAll snippet.actions).run s with ⟨e | _, t⟩ <;> rfl

/-- A further snippet with branches, if no more visits are left, is one too many. -/
theorem run_visitFrom_zero (h : d.get target = .ok snippet) (hbranches : snippet.branches ≠ [])
    (first : Target) (s : Session) :
    (visitFrom d first 0 target).run s = (.error (.endlessChain first), s) := by
  rw [visitFrom, Step.run_bind_ok (run_get_snippet h s), if_neg]
  · rfl
  · rw [List.isEmpty_iff]
    exact hbranches

/-- From snippets with branches the rest of a chain comes to the same as visits to all of them. -/
def AgreesFrom (d : DialogStore) (first : Target) (left : Nat) : Prop :=
  ∀ target snippet, d.get target = .ok snippet → snippet.branches ≠ [] → ∀ s,
    (chainFrom d first left target).run s = (visitFrom d first left target).run s

/-- What a chain does once a branch holds is to visit the snippet that the branch leads to. -/
theorem run_goOn {first : Target} {left : Nat} (hagrees : AgreesFrom d first left)
    (h : d.get target = .ok snippet) (hbranches : snippet.branches ≠ []) (t : Session) :
    (do
      let following ← Step.view fun _ => d.get next
      if following.branches.isEmpty then
        if next = target then pure () else performAll following.actions
      else chainFrom d first left next : Step Session Unit).run t =
    (visitFrom d first left next).run t := by
  rcases hnext : d.get next with e | following
  · rw [run_visitFrom_missing hnext]
    rfl
  · change (if following.branches.isEmpty = true then _ else _ : Step Session Unit).run t = _
    by_cases hnil : following.branches = []
    · -- A snippet with branches does not lead to itself here, since this one has none.
      have hne : next ≠ target := by
        rintro rfl
        rw [h] at hnext
        cases hnext
        exact hbranches hnil
      rw [if_pos (List.isEmpty_iff.2 hnil), if_neg hne, run_visitFrom_of_branches hnext hnil]
    · rw [if_neg fun hempty => hnil (List.isEmpty_iff.1 hempty)]
      exact hagrees next following hnext hnil t

theorem run_chainFrom_succ {first : Target} {left : Nat} (hagrees : AgreesFrom d first left)
    (target : Target) (s : Session) :
    (chainFrom d first (left + 1) target).run s = (visitFrom d first (left + 1) target).run s := by
  rw [chainFrom, visitFrom]
  -- Both do the same until the branches have been tested.
  refine Step.run_bind_congr fun snippet _ hsnippet => ?_
  refine Step.run_bind_congr fun _ t _ => Step.run_bind_congr fun holding u hholding => ?_
  have hget : d.get target = .ok snippet := congrArg Prod.fst hsnippet
  have hlast : t.lastHolding snippet.branches = .ok holding := congrArg Prod.fst hholding
  rcases holding with _ | next
  · rfl
  · have hspec := lastHolding_spec t snippet.branches
    rw [hlast] at hspec
    exact run_goOn hagrees hget hspec.ne_nil u

theorem agreesFrom (d : DialogStore) (first : Target) (left : Nat) : AgreesFrom d first left := by
  induction left with
  -- A chain with no visits left stops without a look, but it comes there with branches only.
  | zero =>
    intro target snippet h hbranches s
    rw [run_visitFrom_zero h hbranches]
    rfl
  | succ left ih => exact fun target _ _ _ s => run_chainFrom_succ ih target s

/-- A chain visits every snippet in the same way. -/
theorem run_chain_eq (d : DialogStore) (first : Target) (s : Session) :
    (chain d first).run s = (visitFrom d first maxChain first).run s :=
  run_chainFrom_succ (agreesFrom d first 63) first s

/-! ## How visits end -/

/-- How visits end of which so many are left: after the last of them only a snippet without branches
may be visited, and one with branches ends them. -/
inductive Ends (d : DialogStore) (first : Target) (left : Nat) (target : Target) (s : Session) :
    Except Fault Unit → Session → Prop
  | recounted {visited : List Snippet} {r : Except Fault Unit} {u : Session}
    (h : Recounts d visited target s r u)
    (hbound : ∀ snippet ∈ visited.drop left, snippet.branches = []) : Ends d first left target s r u
  | endless {visited : List Snippet} {last : Target} {snippet : Snippet} {u : Session}
    (h : Passes d visited target s last u) (hlength : visited.length = left)
    (hget : d.get last = .ok snippet) (hbranches : snippet.branches ≠ []) :
    Ends d first left target s (.error (.endlessChain first)) u

/-- A visit goes on as the test of the branches says. -/
theorem run_visitFrom_succ (h : d.get target = .ok snippet)
    (hperform : (performAll snippet.actions).run s = (.ok (), t)) (first : Target) (left : Nat) :
    (visitFrom d first (left + 1) target).run s = match t.lastHolding snippet.branches with
      | .error e => (.error e, t)
      | .ok none => (.ok (), t)
      | .ok (some next) => (visitFrom d first left next).run t := by
  rw [visitFrom, Step.run_bind_ok (run_get_snippet h s), Step.run_bind_ok hperform, Step.run_bind,
    Step.run_view]
  rcases t.lastHolding snippet.branches with e | _ | next <;> rfl

/-- A visit cut short by a fault among the actions goes no further. -/
theorem run_visitFrom_interrupted (h : d.get target = .ok snippet)
    (hperform : (performAll snippet.actions).run s = (.error e, t)) (first : Target) (left : Nat) :
    (visitFrom d first (left + 1) target).run s = (.error e, t) := by
  rw [visitFrom, Step.run_bind_ok (run_get_snippet h s), Step.run_bind_error hperform]

/-- The one visit to a snippet without branches. -/
theorem recounts_of_branches (h : d.get target = .ok snippet) (hnil : snippet.branches = [])
    (s : Session) : Recounts d [snippet] target s ((performAll snippet.actions).run s).1
      ((performAll snippet.actions).run s).2 := by
  rcases hperform : (performAll snippet.actions).run s with ⟨e | _, t⟩
  · exact .interrupted h hperform
  · refine .ends h hperform fun b hb => ?_
    rw [hnil] at hb
    exact absurd hb List.not_mem_nil

/-- Visits come to the end that they should. -/
theorem ends_visitFrom (d : DialogStore) (first : Target) (left : Nat) (target : Target)
    (s : Session) : Ends d first left target s ((visitFrom d first left target).run s).1
      ((visitFrom d first left target).run s).2 := by
  -- Every visit takes one from those that are left.
  induction left generalizing target s with
  | zero =>
    rcases hget : d.get target with e | snippet
    · rw [run_visitFrom_missing hget]
      exact .recounted (.missing s hget) fun _ h => absurd h List.not_mem_nil
    · by_cases hnil : snippet.branches = []
      · rw [run_visitFrom_of_branches hget hnil]
        exact .recounted (recounts_of_branches hget hnil s) (List.forall_mem_singleton.2 hnil)
      · rw [run_visitFrom_zero hget hnil]
        exact .endless (.refl target s) rfl hget hnil
  | succ left ih =>
    rcases hget : d.get target with e | snippet
    · rw [run_visitFrom_missing hget]
      exact .recounted (.missing s hget) fun _ h => absurd h List.not_mem_nil
    · have hlast : ∀ x ∈ [snippet].drop (left + 1), x.branches = [] := fun x hx => by
        rw [List.drop_succ_cons, List.drop_nil] at hx
        exact absurd hx List.not_mem_nil
      rcases hperform : (performAll snippet.actions).run s with ⟨e | _, t⟩
      · rw [run_visitFrom_interrupted hget hperform]
        exact .recounted (.interrupted hget hperform) hlast
      · rw [run_visitFrom_succ hget hperform]
        have hspec := lastHolding_spec t snippet.branches
        rcases htest : t.lastHolding snippet.branches with e | _ | next
        all_goals rw [htest] at hspec
        · exact .recounted (.untestable hget hperform hspec) hlast
        · exact .recounted (.ends hget hperform hspec) hlast
        · have hmoves : Moves d snippet target s next t := ⟨hget, hperform, hspec⟩
          dsimp only
          have hends := ih next t
          generalize (visitFrom d first left next).run t = result at hends
          obtain ⟨r, u⟩ := result
          cases hends with
          | recounted h hbound => exact .recounted (.step hmoves h) hbound
          | endless h hlength hget hbranches =>
            exact .endless (.step hmoves h) (congrArg (· + 1) hlength) hget hbranches

/-- Visits to the end are those that are made, if there are enough left. -/
theorem Recounts.run_visitFrom {visited : List Snippet} {r : Except Fault Unit}
    (h : Recounts d visited target s r u) (first : Target) {left : Nat}
    (hbound : ∀ snippet ∈ visited.drop left, snippet.branches = []) :
    (visitFrom d first left target).run s = (r, u) := by
  -- Where no visits are left, the bound allows for a snippet without branches at most.
  induction h generalizing left with
  | missing s hget => exact run_visitFrom_missing hget first left s
  | interrupted hget hperform =>
    cases left with
    | zero => rw [run_visitFrom_of_branches hget (hbound _ List.mem_cons_self), hperform]
    | succ left => exact run_visitFrom_interrupted hget hperform first left
  | untestable hget hperform htest =>
    cases left with
    | zero => exact absurd (hbound _ List.mem_cons_self) htest.ne_nil
    | succ left => rw [run_visitFrom_succ hget hperform, htest.lastHolding]
  | ends hget hperform htest =>
    cases left with
    | zero => rw [run_visitFrom_of_branches hget (hbound _ List.mem_cons_self), hperform]
    | succ left => rw [run_visitFrom_succ hget hperform, htest.lastHolding]
  | step hmoves _ ih =>
    cases left with
    | zero => exact absurd (hbound _ List.mem_cons_self) hmoves.leads.ne_nil
    | succ left =>
      rw [run_visitFrom_succ hmoves.get hmoves.perform, hmoves.leads.lastHolding]
      exact ih hbound

/-- After visits that use up the number that is left, a snippet with branches is one too many. -/
theorem Passes.run_visitFrom {visited : List Snippet} {last : Target}
    (h : Passes d visited target s last u) (first : Target) (hget : d.get last = .ok snippet)
    (hbranches : snippet.branches ≠ []) :
    (visitFrom d first visited.length target).run s = (.error (.endlessChain first), u) := by
  induction h with
  | refl target s => exact run_visitFrom_zero hget hbranches first s
  | step hmoves _ ih =>
    rw [List.length_cons, run_visitFrom_succ hmoves.get hmoves.perform, hmoves.leads.lastHolding]
    exact ih hget

/-- Visits end as they should and in no other way. -/
theorem run_visitFrom_iff {first : Target} {left : Nat} {r : Except Fault Unit} :
    (visitFrom d first left target).run s = (r, u) ↔ Ends d first left target s r u := by
  constructor
  · intro h
    have hends := ends_visitFrom d first left target s
    rwa [h] at hends
  · rintro (⟨h, hbound⟩ | ⟨h, rfl, hget, hbranches⟩)
    · exact h.run_visitFrom first hbound
    · exact h.run_visitFrom first hget hbranches

/-! ## What is carried out -/

theorem performAll_append (as bs : List Action) :
    performAll (as ++ bs) = performAll as >>= fun _ => performAll bs := by
  induction as with
  | nil => rfl
  | cons a as ih => rw [List.cons_append, performAll, performAll, bind_assoc, ih]

/-- To pass from one target to another is to carry out the actions of each visit once, in order. -/
theorem Passes.run_performAll {visited : List Snippet} {last : Target}
    (h : Passes d visited target s last u) :
    (performAll (visited.flatMap (·.actions))).run s = (.ok (), u) := by
  induction h with
  | refl target s => rfl
  | step hmoves _ ih =>
    rw [List.flatMap_cons, performAll_append, Step.run_bind_ok hmoves.perform, ih]

/-- So it is with all visits to the end. -/
theorem Recounts.run_performAll {visited : List Snippet} {r : Except Fault Unit}
    (h : Recounts d visited target s r u) :
    ((performAll (visited.flatMap (·.actions))).run s).2 = u := by
  induction h with
  | missing s hget => rfl
  | interrupted _ hperform | untestable _ hperform _ | ends _ hperform _ =>
    rw [List.flatMap_singleton, hperform]
  | step hmoves _ ih =>
    rw [List.flatMap_cons, performAll_append, Step.run_bind_ok hmoves.perform, ih]

/-- Only the last of the visits may be one more than are left. -/
theorem Recounts.length_le {visited : List Snippet} {r : Except Fault Unit}
    (h : Recounts d visited target s r u) {left : Nat}
    (hbound : ∀ snippet ∈ visited.drop left, snippet.branches = []) :
    visited.length ≤ left + 1 := by
  induction h generalizing left with
  | missing => exact Nat.zero_le _
  | interrupted | untestable | ends => exact Nat.le_add_left 1 left
  | step hmoves _ ih =>
    cases left with
    | zero => exact absurd (hbound _ List.mem_cons_self) hmoves.leads.ne_nil
    | succ left => exact Nat.succ_le_succ (ih hbound)

/--
A chain comes to the end of the recursion that visits a snippet and then the one that the last
branch that holds leads to, if no snippet after the sixty-fourth has branches, so that there are
sixty-five visits at most; or it is cut short where one does. The session that is left is the one
after the actions of the snippets that are visited, each carried out once for each visit.
-/
theorem run_chain_iff (d : DialogStore) (first : Target) (s u : Session) (r : Except Fault Unit) :
    ((chain d first).run s = (r, u) ↔
      (∃ visited, Recounts d visited first s r u ∧ visited.length ≤ 65 ∧
        ∀ snippet ∈ visited.drop 64, snippet.branches = []) ∨
      r = .error (.endlessChain first) ∧ ∃ visited last snippet,
        Passes d visited first s last u ∧ visited.length = 64 ∧
          d.get last = .ok snippet ∧ snippet.branches ≠ []) ∧
    (∀ visited, Recounts d visited first s r u →
      ((performAll (visited.flatMap (·.actions))).run s).2 = u) ∧
    ∀ visited last, Passes d visited first s last u →
      (performAll (visited.flatMap (·.actions))).run s = (.ok (), u) := by
  refine ⟨?_, fun visited h => h.run_performAll, fun visited last h => h.run_performAll⟩
  rw [run_chain_eq, run_visitFrom_iff]
  constructor
  · rintro (⟨h, hbound⟩ | ⟨h, hlength, hget, hbranches⟩)
    · exact .inl ⟨_, h, h.length_le hbound, hbound⟩
    · exact .inr ⟨rfl, _, _, _, h, hlength, hget, hbranches⟩
  · rintro (⟨_, h, -, hbound⟩ | ⟨rfl, _, _, _, h, hlength, hget, hbranches⟩)
    · exact .recounted h hbound
    · exact .endless h hlength hget hbranches

end QuestLogic.Session
