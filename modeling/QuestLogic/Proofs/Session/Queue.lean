import Mathlib
import QuestLogic.Proofs.Script.Library
import QuestLogic.Proofs.Session.Recursion
import QuestLogic.Proofs.Session.Refusal

/-!
# Snippets that are left to be seen

An action may leave a snippet for the player to see. Nothing else in a chain or in the beginning of
a chapter touches the queue of such snippets, and nothing is taken from it there, so that actions
that go through add to its end what they leave, in their order (`Session.pending_performAll`). From
an empty queue, chains and beginnings over a library come to queue just what some action of its
snippets leaves (`Session.exists_pending_iff`). To finish a library is to look at where branches and
beginnings lead, but not at what actions leave. So it depends on the actions alone whether all that
is queued is in the library (`Session.pending_contained_iff`).
-/

namespace QuestLogic

/-- What an action leaves for the player to see. -/
def Action.queued : Action → List Target
  | .pushNextDialog target => [target]
  | _ => []

theorem Action.mem_queued {a : Action} {next : Target} :
    next ∈ a.queued ↔ a = .pushNextDialog next := by
  cases a with
  | pushNextDialog target =>
    rw [queued, List.mem_singleton, Action.pushNextDialog.injEq, eq_comm]
  | _ => exact iff_of_false List.not_mem_nil Action.noConfusion

/-- An action of one of the snippets leaves the target for the player to see. -/
def DialogStore.Queues (d : DialogStore) (next : Target) : Prop :=
  ∃ target snippet, d.get target = .ok snippet ∧ .pushNextDialog next ∈ snippet.actions

/-- A snippet that is found is in the store. -/
theorem DialogStore.contains_of_get {d : DialogStore} {target : Target} {snippet : Snippet}
    (h : d.get target = .ok snippet) : d.contains target = true := by
  unfold get at h
  split at h
  · rename_i hfind
    exact Option.isSome_iff_exists.2 ⟨_, hfind⟩
  · cases h

namespace Session

variable {α : Type} {Q : Target → Prop} {s t : Session} {d : DialogStore}

/-! ## What leaves the queue alone -/

/-- Nothing is taken from the queue, and what is added to its end is as `Q` says, whatever faults
are met. -/
def queueing (Q : Target → Prop) : Rule Session where
  leads s t := ∃ more, t.pending = s.pending ++ more ∧ ∀ next ∈ more, Q next
  permits _ _ := True
  refl s := ⟨[], (List.append_nil _).symm, fun next h => absurd h List.not_mem_nil⟩
  trans := by
    rintro s t u ⟨xs, ht, hxs⟩ ⟨ys, hu, hys⟩
    refine ⟨xs ++ ys, by rw [hu, ht, List.append_assoc], fun next h => ?_⟩
    exact (List.mem_append.1 h).elim (hxs next) (hys next)

/-- A queue that stays as it is is within the rule. -/
theorem queueing_of_eq (h : t.pending = s.pending) : (queueing Q).leads s t :=
  ⟨[], by rw [h, List.append_nil], fun next h => absurd h List.not_mem_nil⟩

/-- The change is none of the queue's. -/
def Deed.SparesQueue : Deed → Prop
  | .load _ | .note => False
  | _ => True

theorem Change.pending_eq {d : Deed} (h : Change d s t) (hd : d.SparesQueue) :
    t.pending = s.pending := by
  cases h with
  | load | note => exact hd.elim
  | _ => rfl

/-- Steps that load no image and note nothing leave the queue alone. -/
theorem queueing_of_obeys {x : Step Session α} (hx : (rule Deed.SparesQueue).Obeys x) :
    (queueing Q).Obeys x := fun s =>
  ⟨queueing_of_eq ((hx s).1.keeps (P := fun t => t.pending = s.pending)
    (fun hd h hs => (h.pending_eq hd).trans hs) rfl), fun _ _ => trivial⟩

/-- So do rolls of the dice. -/
theorem queueing_of_rolling {x : Step Session α} (hx : rolling.Obeys x) : (queueing Q).Obeys x := by
  refine fun s => ⟨?_, fun _ _ => trivial⟩
  obtain ⟨_, -, hrolled⟩ := (hx s).1
  exact queueing_of_eq (by rw [hrolled])

theorem queueing_modify {f : Session → Session} (h : ∀ s, (f s).pending = s.pending) :
    (queueing Q).Obeys (modify f) :=
  Rule.obeys_modify fun s => queueing_of_eq (h s)

theorem queueing_update {f : Session → Except Fault Session}
    (h : ∀ s t, f s = .ok t → t.pending = s.pending) : (queueing Q).Obeys (.update f) :=
  Rule.obeys_update (fun s t hok => queueing_of_eq (h s t hok)) fun _ _ _ => trivial

theorem queueing_view {f : Session → Except Fault α} : (queueing Q).Obeys (.view f) :=
  Rule.obeys_view fun _ _ _ => trivial

/-! ## What is noted besides -/

theorem queueing_assignRole (slot : UInt8) (id : CharId) :
    (queueing Q).Obeys (assignRole slot id) := by
  refine queueing_update fun s t h => ?_
  obtain ⟨c, -, h⟩ := Except.bind_eq_ok.1 h
  cases h
  rfl

theorem queueing_setTextVariable (slot source : UInt8) :
    (queueing Q).Obeys (setTextVariable slot source) := by
  have hlot : ∀ kind, (queueing Q).Obeys (pickByLot slot kind) := fun kind =>
    queueing_of_rolling (rolling_pickByLot slot kind)
  have hfill := obeys_fillRole_of_assignRole (queueing_assignRole slot) hlot (fun _ _ => trivial)
  exact obeys_setTextVariable_of_fillRole (hfill source)
    (fun text => queueing_modify fun s => rfl) queueing_view

theorem queueing_writeFlag (w : FlagWrite) : (queueing Q).Obeys (writeFlag w) := by
  unfold writeFlag
  split_ifs
  · exact queueing_modify fun s => rfl
  · exact queueing_modify fun s => rfl
  · exact obeys_onSave_of_image (fun s m => queueing_of_eq rfl) fun _ _ => trivial

theorem queueing_testSkill (skill : SkillType) (best : Bool) :
    (queueing Q).Obeys (testSkill skill best) := by
  refine queueing_update fun s t h => ?_
  split at h <;> cases h
  rfl

theorem queueing_performSpecial (a : SpecialAction) (x y z : UInt16) :
    (queueing Q).Obeys (performSpecial a x y z) := by
  cases a with
  | increaseContextVar | resetGambleValueTo => exact queueing_modify fun s => rfl
  | gamble =>
    exact obeys_gamble_of_roll (queueing_of_rolling (rolling_roll _ _))
      (queueing_modify fun s => rfl) (queueing_modify fun s => rfl) x y
  | _ =>
    refine queueing_of_obeys (obeys_performSpecial (fun d hd => ?_) y z)
    cases hd
    all_goals trivial

/-- Someone gains by as much as is rolled. -/
theorem queueing_gain {f : Int → Character → Character}
    (hf : ∀ amount c, Character.Leads c (f amount c)) (min max : Int16) (who : UInt8) :
    (queueing Q).Obeys (rollAmount min max >>= fun amount => changeTargets who (f amount)) :=
  (queueing_of_rolling (rolling_rollAmount min max)).bind fun amount =>
    queueing_of_obeys (obeys_changeTargets trivial who (hf amount))

theorem sparesQueue_of_passage {d : Deed} (hd : d.OfPassage) : d.SparesQueue := by
  cases hd
  all_goals trivial

/-! ## Actions -/

/-- An action adds to the queue what it leaves to be seen. -/
theorem queueing_perform {a : Action} (ha : ∀ next ∈ a.queued, Q next) :
    (queueing Q).Obeys (perform a) := by
  cases a with
  | pushNextDialog target => exact Rule.obeys_modify fun s => ⟨[target], rfl, ha⟩
  | setEndOfDialogState => exact queueing_modify fun s => rfl
  | setFlag write => exact queueing_writeFlag write
  | gainSkill who skill min max =>
    exact queueing_gain (fun amount c => (Character.Change.improve c skill amount).leads)
      min max who
  | gainCondition who condition min max =>
    exact queueing_gain (fun amount c => (Character.Change.condition c condition amount).leads)
      min max who
  | loadSkillValue which skill => exact queueing_testSkill skill _
  | special a x y z => exact queueing_performSpecial a x y z
  | setTextVariable which what => exact queueing_setTextVariable which what
  | unknown => exact Rule.obeys_pure _
  -- The other actions note nothing.
  | elapseTime =>
    exact queueing_of_obeys (obeys_perform fun d hd => sparesQueue_of_passage hd)
  | setAddResetState =>
    refine queueing_of_obeys (obeys_perform fun d hd => ?_)
    obtain rfl | rfl := hd
    all_goals trivial
  | _ =>
    refine queueing_of_obeys (obeys_perform fun d hd => ?_)
    cases hd
    trivial

/-- What is left to be seen after an action is what was before, and then what the action leaves. -/
theorem pending_perform (a : Action) (s : Session) :
    ((perform a).run s).2.pending = s.pending ++ a.queued := by
  by_cases hnone : a.queued = []
  · have hqueue : ∀ next ∈ a.queued, False := fun next h => by
      rw [hnone] at h
      exact List.not_mem_nil h
    obtain ⟨more, hmore, hempty⟩ := (queueing_perform hqueue s).1
    rw [hmore, hnone, List.eq_nil_iff_forall_not_mem.2 hempty]
  · cases a with
    | pushNextDialog target => rfl
    | _ => exact absurd rfl hnone

theorem queueing_performOrSkip {a : Action} (ha : ∀ next ∈ a.queued, Q next) :
    (queueing Q).Obeys (performOrSkip a) := by
  refine fun s => ⟨?_, fun _ _ => trivial⟩
  rw [run_performOrSkip]
  exact (queueing_perform ha s).1

theorem queueing_performAll {as : List Action} (has : ∀ a ∈ as, ∀ next ∈ a.queued, Q next) :
    (queueing Q).Obeys (performAll as) := by
  induction as with
  | nil => exact Rule.obeys_pure _
  | cons a rest ih =>
    obtain ⟨ha, hrest⟩ := List.forall_mem_cons.1 has
    exact (queueing_performOrSkip ha).bind fun _ => ih hrest

/-- Actions that are carried out to the last one add to the queue what they leave, in their
order. -/
theorem pending_performAll {as : List Action} (h : ((performAll as).run s).1 = .ok ()) :
    ((performAll as).run s).2.pending = s.pending ++ as.flatMap Action.queued := by
  induction as generalizing s with
  | nil => exact (List.append_nil _).symm
  | cons a rest ih =>
    rcases hfirst : (performOrSkip a).run s with ⟨e | _, u⟩
    · rw [performAll, Step.run_bind_error hfirst] at h
      cases h
    · have hu : u = ((perform a).run s).2 := by rw [← run_performOrSkip, hfirst]
      rw [performAll, Step.run_bind_ok hfirst] at h ⊢
      rw [ih h, hu, pending_perform, List.append_assoc, List.flatMap_cons]

/-! ## Chains -/

/-- The snippets that are visited on the way are there. -/
theorem Passes.exists_get {visited : List Snippet} {target last : Target}
    (h : Passes d visited target s last t) : ∀ x ∈ visited, ∃ target, d.get target = .ok x := by
  induction h with
  | refl => exact fun x hx => absurd hx List.not_mem_nil
  | step h _ ih => exact List.forall_mem_cons.2 ⟨⟨_, h.get⟩, ih⟩

/-- So are those that are visited to the end. -/
theorem Recounts.exists_get {visited : List Snippet} {target : Target} {r : Except Fault Unit}
    (h : Recounts d visited target s r t) : ∀ x ∈ visited, ∃ target, d.get target = .ok x := by
  induction h with
  | missing => exact fun x hx => absurd hx List.not_mem_nil
  | interrupted h | untestable h | ends h => exact List.forall_mem_singleton.2 ⟨_, h⟩
  | step h _ ih => exact List.forall_mem_cons.2 ⟨⟨_, h.get⟩, ih⟩

/-- Of the snippets that are visited the one that is come to first is one. -/
theorem Recounts.mem {visited : List Snippet} {target : Target} {r : Except Fault Unit}
    {snippet : Snippet} (h : Recounts d visited target s r t) (hget : d.get target = .ok snippet) :
    snippet ∈ visited := by
  cases h with
  | missing _ h => cases hget.symm.trans h
  | interrupted h | untestable h | ends h =>
    cases hget.symm.trans h
    exact List.mem_cons_self
  | step h =>
    cases hget.symm.trans h.get
    exact List.mem_cons_self

/-- So it is of those that are visited on the way, if there are any. -/
theorem Passes.mem {visited : List Snippet} {target last : Target} {snippet : Snippet}
    (h : Passes d visited target s last t) (hvisited : visited ≠ [])
    (hget : d.get target = .ok snippet) : snippet ∈ visited := by
  cases h with
  | refl => exact absurd rfl hvisited
  | step h =>
    cases hget.symm.trans h.get
    exact List.mem_cons_self

/-- A chain leaves what the actions of snippets leave that it visits, of which the first is one. -/
theorem exists_visited (d : DialogStore) (first : Target) (s : Session) :
    ∃ visited : List Snippet, (∀ x ∈ visited, ∃ target, d.get target = .ok x) ∧
      (∀ x, d.get first = .ok x → x ∈ visited) ∧
      ((chain d first).run s).2 = ((performAll (visited.flatMap (·.actions))).run s).2 := by
  obtain ⟨hends, hrecounts, hpasses⟩ := run_chain_iff d first s ((chain d first).run s).2
    ((chain d first).run s).1
  obtain ⟨visited, h, -⟩ | ⟨-, visited, last, snippet, h, hlength, -⟩ := hends.1 rfl
  · exact ⟨visited, h.exists_get, fun x hx => h.mem hx, (hrecounts visited h).symm⟩
  · have hvisited : visited ≠ [] := List.ne_nil_of_length_pos (by omega)
    exact ⟨visited, h.exists_get, fun x hx => h.mem hvisited hx, by rw [hpasses visited last h]⟩

/-- What the actions of some of its snippets add to the queue, a store queues. -/
theorem queueing_actions {visited : List Snippet}
    (h : ∀ x ∈ visited, ∃ target, d.get target = .ok x) :
    (queueing d.Queues).Obeys (performAll (visited.flatMap (·.actions))) := by
  refine queueing_performAll fun a ha next hnext => ?_
  obtain ⟨x, hx, ha⟩ := List.mem_flatMap.1 ha
  obtain ⟨target, hget⟩ := h x hx
  exact ⟨target, x, hget, Action.mem_queued.1 hnext ▸ ha⟩

theorem queueing_chain (d : DialogStore) (first : Target) :
    (queueing d.Queues).Obeys (chain d first) := by
  refine fun s => ⟨?_, fun _ _ => trivial⟩
  obtain ⟨visited, hvisited, -, hrun⟩ := exists_visited d first s
  rw [hrun]
  exact (queueing_actions hvisited s).1

/-- Where the image reaches to the end of the flags, a chain comes to queue all that its first
snippet leaves. -/
theorem mem_pending_chain {first next : Target} {snippet : Snippet}
    (hget : d.get first = .ok snippet) (hnext : .pushNextDialog next ∈ snippet.actions)
    (hs : ¬s.IsCutShort) : next ∈ ((chain d first).run s).2.pending := by
  obtain ⟨visited, -, hmem, hrun⟩ := exists_visited d first s
  rw [hrun, pending_performAll (congrArg Prod.fst (run_performAll_eq hs _))]
  refine List.mem_append_right _ (List.mem_flatMap.2 ⟨.pushNextDialog next, ?_, ?_⟩)
  · exact List.mem_flatMap.2 ⟨snippet, hmem snippet hget, hnext⟩
  · exact List.mem_singleton_self next

/-! ## Beginnings -/

theorem queueing_performSnippet (d : DialogStore) (target : Option Target) :
    (queueing d.Queues).Obeys (performSnippet d target) := by
  rcases target with _ | t
  · exact Rule.obeys_pure _
  · refine fun s => Rule.holds_bind (queueing_view s) fun snippet u hget => ?_
    have hvisited : ∀ x ∈ [snippet], ∃ target, d.get target = .ok x :=
      List.forall_mem_singleton.2 ⟨t, congrArg Prod.fst hget⟩
    have hactions := queueing_actions hvisited
    rw [List.flatMap_singleton] at hactions
    exact hactions u

theorem queueing_transition (c : Chapter) (story : Story) (d : DialogStore) :
    (queueing d.Queues).Obeys (transition c story d) := by
  have hpassage : ∀ d : Deed, d.OfPassage → d.SparesQueue := fun _ hd => sparesQueue_of_passage hd
  rw [transition_eq]
  refine queueing_view.bind fun start => ?_
  refine (queueing_of_obeys (obeys_daybreak trivial hpassage (fun _ _ => trivial) c start)).bind
    fun _ => ?_
  refine (queueing_of_obeys (obeys_setAside (fun _ _ => trivial) c)).bind fun _ => ?_
  refine (queueing_of_obeys (obeys_settlePurse hpassage c)).bind fun _ => ?_
  refine (queueing_of_obeys (obeys_rally hpassage)).bind fun _ => ?_
  refine (queueing_performSnippet d _).bind fun _ => ?_
  split
  · exact (queueing_chain d _).bind fun _ => Rule.obeys_pure _
  · exact Rule.obeys_pure _

/-! ## Play over a library -/

/-- The move tells dialogs of the library: it is a chain from one of its snippets, or one of its
chapters begins. -/
inductive Move.Tells (l : Library) : Move → Prop
  | chain {first : Target} (h : l.dialogs.contains first = true) : Tells l (.chain l.dialogs first)
  | transition (c : Chapter) : Tells l (.transition c l.story l.dialogs)

variable {l : Library}

theorem queueing_play {v : Move} (hv : v.Tells l) : (queueing l.dialogs.Queues).Obeys v.play := by
  cases hv with
  | chain => exact queueing_chain l.dialogs _
  | transition c => exact (queueing_transition c l.story l.dialogs).map _

/-- Whatever is told, what comes into the queue is left there by an action of a snippet. -/
theorem Runs.queues (h : Runs (Move.Tells l) s t) (hs : s.pending = []) :
    ∀ next ∈ t.pending, l.dialogs.Queues next := by
  induction h with
  | refl =>
    rw [hs]
    exact fun next h => absurd h List.not_mem_nil
  | tail _ h ih =>
    obtain ⟨v, hv, rfl⟩ := h
    obtain ⟨more, hpending, hmore⟩ := (queueing_play hv _).1
    rw [hpending]
    exact fun next h => (List.mem_append.1 h).elim (ih next) (hmore next)

/-- What chains and beginnings come to queue is what some action of the library leaves. -/
theorem exists_pending_iff (l : Library) (next : Target) :
    (∃ s t : Session, s.pending = [] ∧ Runs (Move.Tells l) s t ∧ next ∈ t.pending) ↔
      l.dialogs.Queues next := by
  constructor
  · rintro ⟨s, t, hs, hrun, hnext⟩
    exact hrun.queues hs next hnext
  · rintro ⟨target, snippet, hget, hnext⟩
    let s : Session := ofSettings .usual .initial
    have hs : ¬s.IsCutShort := by
      rintro ⟨m, hm, -⟩
      cases hm
    refine ⟨s, _, rfl, .single ⟨_, .chain (DialogStore.contains_of_get hget), rfl⟩, ?_⟩
    exact mem_pending_chain hget hnext hs

/--
Whatever chains and beginnings over a library come to queue, from an empty queue and whatever faults
they meet, is in the library, if and only if its actions leave nothing to be seen but what is there.
That the library can be finished does not come into it.
-/
theorem pending_contained_iff (l : Library) :
    (∀ s t : Session, s.pending = [] → Runs (Move.Tells l) s t →
      ∀ next ∈ t.pending, l.dialogs.contains next = true) ↔
    ∀ next, l.dialogs.Queues next → l.dialogs.contains next = true := by
  constructor
  · intro h next hnext
    obtain ⟨s, t, hs, hrun, hmem⟩ := (exists_pending_iff l next).2 hnext
    exact h s t hs hrun next hmem
  · intro h s t hs hrun next hnext
    exact h next (hrun.queues hs next hnext)

/-- A library whose only snippet leaves another to be seen, which is not there. -/
def promising : Library :=
  ⟨⟨[(⟨16⟩, ⟨[.pushNextDialog ⟨18⟩], []⟩)]⟩, ⟨[], none⟩, .empty, none⟩

theorem loaded_promising : Library.Loaded .script promising := by
  have hload : Loading.after (Library.loadWith .script .snippets
      "(snippets: [(target: 16, actions: [PushNextDialog(target: 18)])])") .empty = promising := by
    cbv
  exact hload ▸ Library.Loaded.empty.load _ _

/-- The library is finished all the same, and the chain from its snippet queues the other. -/
theorem pending_promising :
    Library.Loaded .script promising ∧ promising.finish = .ok promising ∧
      promising.dialogs.contains ⟨16⟩ = true ∧ ∃ s t : Session, s.pending = [] ∧
        Runs (Move.Tells promising) s t ∧ t = ((chain promising.dialogs ⟨16⟩).run s).2 ∧
        t.pending = [⟨18⟩] ∧ promising.dialogs.contains ⟨18⟩ = false := by
  have hfinish : promising.finish = .ok promising := by decide +kernel
  have hfirst : promising.dialogs.contains ⟨16⟩ = true := rfl
  exact ⟨loaded_promising, hfinish, hfirst, ofSettings .usual .initial, _, rfl,
    .single ⟨_, .chain hfirst, rfl⟩, rfl, rfl, rfl⟩

end Session

end QuestLogic
