import QuestLogic.Proofs.Ledger.Spell
import QuestLogic.Proofs.Session.Integrity

/-!
# Flags that are set for a while

A dialog that sets a flag for a while does two things, and the second may fail: it sets the flag,
and then it asks the ledger to clear it again, which a full ledger refuses. Nothing is taken back
(`Session.run_setAddResetState`), so that with a full ledger the flag stays set although nothing is
there to clear it. What the ledger has been asked for it keeps as long as no time passes
(`Session.Change.resetIsDue`), and from both follows what a list of actions makes of such a flag
(`Session.run_performAll_temporary`).
-/

namespace QuestLogic

namespace Ledger

variable {kind kind' : EffectKind} {subject subject' : UInt16} {flags : UInt8} {duration : Time}

/-- An entry with a new duration is about what it was about. -/
theorem any_isAbout_renew (es : List Effect) :
    (renew kind subject flags duration es).any (·.isAbout kind' subject') =
      es.any (·.isAbout kind' subject') := by
  induction es with
  | nil => rfl
  | cons e rest ih =>
    rw [renew]
    split
    · rfl
    · rw [List.any_cons, ih, List.any_cons]

/-- Whatever begins, the ledger still holds what it held. -/
theorem any_isAbout_add? {l l' : Ledger} (h : l.add? kind subject flags duration = some l')
    (hl : l.entries.any (·.isAbout kind' subject') = true) :
    l'.entries.any (·.isAbout kind' subject') = true := by
  obtain ⟨-, -, rfl⟩ | ⟨-, -, rfl⟩ := add?_cases h
  · rwa [any_isAbout_renew]
  · rw [List.any_append, hl, Bool.true_or]

/-- An effect that stands apart begins just if there is room. -/
theorem add?_apart (l : Ledger) (kind : EffectKind) (subject : UInt16) (duration : Time) :
    l.add? kind subject Effect.apart duration =
      if l.entries.length < l.capacity then
        some { l with entries := l.entries ++ [⟨kind, Effect.apart, subject, duration⟩] }
      else none := by
  have hapart : Effect.merges Effect.apart = false := by decide
  rw [add?, hapart, Bool.false_and, if_neg Bool.false_ne_true]

end Ledger

namespace Session

variable {s t u : Session} {m : Image} {p : EventPtr} {d : Deed}

/-- The ledger is going to clear the flag at a pointer. -/
def ResetIsDue (s : Session) (p : EventPtr) : Prop :=
  s.ledger.entries.any (·.isAbout .resetState p) = true

/-! ## As long as no time passes -/

/-- The change takes no time from the effects in the ledger and drops none of them, but for
lights. -/
def Deed.LeavesResets : Deed → Prop
  | .load _ | .visit _ | .sweep => False
  | _ => True

/-- What is due stays due. -/
theorem Change.resetIsDue (h : Change d s t) (hd : d.LeavesResets) (hs : s.ResetIsDue p) :
    t.ResetIsDue p := by
  cases h with
  | load | visit | sweep => exact hd.elim
  | begin hadd | cast hadd | kindle hadd => exact Ledger.any_isAbout_add? hadd hs
  | douse =>
    -- A flag is no light.
    obtain ⟨e, he, habout⟩ := List.any_eq_true.1 hs
    have hkind : e.kind ≠ .light := by
      rw [(Ledger.isAbout_iff.1 habout).1]
      decide
    exact List.any_eq_true.2 ⟨e, List.mem_filter.2 ⟨he, decide_eq_true hkind⟩, habout⟩
  | note h =>
    rw [ResetIsDue, h.ledger]
    exact hs
  | _ => exact hs

/-- Only an action that lets time pass takes time from the ledger. -/
theorem leavesResets_of_action {a : Action} (ha : ∀ time, a ≠ .elapseTime time) (hd : a.Does d) :
    d.LeavesResets := by
  cases a with
  | elapseTime time => exact absurd rfl (ha time)
  | setFlag write =>
    obtain rfl | ⟨w, -, rfl⟩ := hd
    all_goals trivial
  | setAddResetState | gainSkill | gainCondition | setTextVariable =>
    obtain rfl | rfl := hd
    all_goals trivial
  | unknown kind data => exact hd.elim
  | _ => cases hd <;> trivial

/-- While no time passes, actions leave due what is due. -/
theorem resetIsDue_performAll {as : List Action} (has : ∀ a ∈ as, ∀ time, a ≠ .elapseTime time)
    (hs : s.ResetIsDue p) : ((performAll as).run s).2.ResetIsDue p := by
  have hlead := (obeys_performAll (K := Deed.LeavesResets)
    (fun a ha _ hd => leavesResets_of_action (has a ha) hd) s).1
  exact hlead.keeps (fun hd hchange => hchange.resetIsDue hd) hs

/-! ## The flag and the ledger -/

/-- What a dialog that sets a flag for a while makes of a session: the flag is set in any case, and
cleared later on if the ledger has room. -/
structure SetsForAWhile (s : Session) (p : EventPtr) (duration : Time) (r : Except Fault Unit)
    (t : Session) : Prop where
  save : t.save = s.save.map (·.withFlag p true)
  flag : p ≠ chapterPointer → t.eventFlag p = .ok true
  gauge : p = chapterPointer → t.eventFlag p = s.eventFlag p
  room : s.ledger.entries.length < s.ledger.capacity → r = .ok () ∧ t.ledger =
    { s.ledger with entries := s.ledger.entries ++ [⟨.resetState, Effect.apart, p, duration⟩] }
  full : s.ledger.capacity ≤ s.ledger.entries.length → r = .error .ledgerFull ∧
    t.ledger = s.ledger

/-- A flag that is set for a while is due to be cleared if it was, or if the dialog went through. -/
theorem SetsForAWhile.resetIsDue_iff {duration : Time} {r : Except Fault Unit}
    (h : SetsForAWhile s p duration r t) : t.ResetIsDue p ↔ r = .ok () ∨ s.ResetIsDue p := by
  rcases Nat.lt_or_ge s.ledger.entries.length s.ledger.capacity with hroom | hfull
  · obtain ⟨hok, hledger⟩ := h.room hroom
    have habout : Effect.isAbout ⟨.resetState, Effect.apart, p, duration⟩ .resetState p = true :=
      Ledger.isAbout_iff.2 ⟨rfl, rfl⟩
    have hdue : t.ResetIsDue p := by
      rw [ResetIsDue, hledger, List.any_append, List.any_cons, habout, Bool.true_or, Bool.or_true]
    exact iff_of_true hdue (.inl hok)
  · obtain ⟨herror, hledger⟩ := h.full hfull
    rw [ResetIsDue, ResetIsDue, hledger, herror]
    simp

/-- An effect that stands apart begins if the ledger has room. -/
theorem run_addEffect_apart_of_lt (hroom : s.ledger.entries.length < s.ledger.capacity)
    (kind : EffectKind) (subject : UInt16) (duration : Time) :
    (addEffect kind subject Effect.apart duration).run s = (.ok (), { s with ledger.entries :=
      s.ledger.entries ++ [⟨kind, Effect.apart, subject, duration⟩] }) := by
  apply Step.run_update_ok
  dsimp only
  rw [Ledger.add?_apart, if_pos hroom]

/-- If the ledger is full, nothing happens. -/
theorem run_addEffect_apart_of_le (hfull : s.ledger.capacity ≤ s.ledger.entries.length)
    (kind : EffectKind) (subject : UInt16) (duration : Time) :
    (addEffect kind subject Effect.apart duration).run s = (.error .ledgerFull, s) := by
  apply Step.run_update_error
  rw [Ledger.add?_apart, if_neg (Nat.not_lt.2 hfull)]

/-- The flag is set, and then the ledger is asked to clear it. -/
theorem run_setAddResetState (hsave : s.save = some m) (hm : Layout.size ≤ m.size) (p : EventPtr)
    (duration : Time) :
    ∃ r t, (perform (.setAddResetState p duration)).run s = (r, t) ∧
      SetsForAWhile s p duration r t := by
  let u : Session := { s with save := s.save.map (·.withFlags [(p, true)]) }
  have hset : (setEvent p true).run s = (.ok (), u) := run_setEvent (not_isCutShort hsave hm) p true
  have husave : u.save = some (m.withFlag p true) := by
    show s.save.map _ = _
    rw [hsave]
    rfl
  have hflag : p ≠ chapterPointer → u.eventFlag p = .ok true := by
    intro hp
    rw [eventFlag_eq husave (by rwa [Image.size_withFlag]) hp, Image.bit_withFlag hm, if_pos rfl]
  have hgauge : p = chapterPointer → u.eventFlag p = s.eventFlag p := by
    intro hp
    rw [eventFlag, eventFlag, if_pos hp, if_pos hp]
  rw [perform, Step.run_bind_ok hset]
  rcases Nat.lt_or_ge s.ledger.entries.length s.ledger.capacity with hroom | hfull
  · refine ⟨_, _, run_addEffect_apart_of_lt (s := u) hroom .resetState p duration, rfl, hflag,
      hgauge, fun _ => ⟨rfl, rfl⟩, fun hfull => absurd hroom (Nat.not_lt.2 hfull)⟩
  · refine ⟨_, _, run_addEffect_apart_of_le (s := u) hfull .resetState p duration, rfl, hflag,
      hgauge, fun hroom => absurd hroom (Nat.not_lt.2 hfull), fun _ => ⟨rfl, rfl⟩⟩

/-- Actions leave the image of a session in its place, and as long as it was. -/
theorem exists_save_foldl_perform (hsave : s.save = some m) (as : List Action) :
    ∃ m', (as.foldl (fun s a => ((perform a).run s).2) s).save = some m' ∧ m'.size = m.size := by
  induction as generalizing s m with
  | nil => exact ⟨m, hsave, rfl⟩
  | cons a rest ih =>
    have hlead := (obeys_perform (K := Deed.KeepsImage) (a := a)
      (fun _ hd => (sparesStash_of_action hd).keepsImage) s).1
    have hsize := hlead.imageSize
    rw [hsave, Option.map_some, Option.map_eq_some_iff] at hsize
    obtain ⟨m', hm', hsize⟩ := hsize
    obtain ⟨m'', hm'', hsize'⟩ := ih hm'
    exact ⟨m'', hm'', hsize'.trans hsize⟩

/--
Wherever among actions over an image that reaches to the end of the flags a flag is set for a while,
it is set. If the ledger has room, the action goes through and the ledger is going to clear the
flag; if it is full, the action fails, the ledger is what it was, and the flag stays set. What is
due after the action is still due after all that follow, as long as none of them lets time pass.
-/
theorem run_performAll_temporary (hsave : s.save = some m) (hm : Layout.size ≤ m.size)
    (before after : List Action) (p : EventPtr) (duration : Time) :
    ∃ u v t r, (performAll before).run s = (.ok (), u) ∧
      (perform (.setAddResetState p duration)).run u = (r, v) ∧
      (performAll (before ++ .setAddResetState p duration :: after)).run s = (.ok (), t) ∧
      SetsForAWhile u p duration r v ∧ (v.ResetIsDue p ↔ r = .ok () ∨ u.ResetIsDue p) ∧
      ((∀ a ∈ after, ∀ time, a ≠ .elapseTime time) → v.ResetIsDue p → t.ResetIsDue p) := by
  have hs := not_isCutShort hsave hm
  let u := before.foldl (fun s a => ((perform a).run s).2) s
  obtain ⟨m', hm', hsize⟩ := exists_save_foldl_perform hsave before
  obtain ⟨r, v, hperform, hsets⟩ := run_setAddResetState hm' (hsize ▸ hm) p duration
  have hv : ¬v.IsCutShort := by
    have hperformed := not_isCutShort_perform (not_isCutShort_foldl_perform hs before)
      (.setAddResetState p duration)
    rwa [hperform] at hperformed
  have hwhole : (performAll (before ++ .setAddResetState p duration :: after)).run s =
      (performAll after).run v := by
    rw [run_performAll_eq hs, run_performAll_eq hv, List.foldl_append, List.foldl_cons, hperform]
  refine ⟨u, v, ((performAll after).run v).2, r, run_performAll_eq hs before, hperform, ?_, hsets,
    hsets.resetIsDue_iff, fun hafter hdue => resetIsDue_performAll hafter hdue⟩
  rw [hwhole, run_performAll_eq hv]

/-- In a new game a flag that is set for a while is due to be cleared, also once the lights have
been put out. -/
theorem run_performAll_temporary_onBlank :
    onBlank.save = some (.zeroed Layout.size) ∧ Layout.size ≤ (Image.zeroed Layout.size).size ∧
      ∃ t, (performAll [.setAddResetState 7000 ⟨100⟩,
          .special .extinguishAllLightSources 0 0 0]).run onBlank = (.ok (), t) ∧
        t.ResetIsDue 7000 := by
  have hm : Layout.size ≤ (Image.zeroed Layout.size).size := Image.full_zeroed
  obtain ⟨u, v, t, r, hu, -, ht, hsets, hdue, hkept⟩ := run_performAll_temporary (s := onBlank) rfl
    hm [] [.special .extinguishAllLightSources 0 0 0] 7000 ⟨100⟩
  cases hu
  obtain ⟨hok, -⟩ := hsets.room (by decide +kernel)
  refine ⟨rfl, hm, t, ht, hkept ?_ (hdue.2 (.inl hok))⟩
  intro a ha time
  rw [List.mem_singleton.1 ha]
  exact nofun

/-- A game whose ledger has room for a single effect. -/
def cramped : Session :=
  { ofSettings { Settings.usual with ledgerCapacity := 1 } .initial with
    save := some (.zeroed Layout.size) }

/-- Where the ledger is full, an action that fails leaves a flag set that was clear, and nothing is
due to clear it. -/
theorem run_setAddResetState_cramped :
    ∃ (s t : Session) (m : Image),
      (perform (.setAddResetState 7000 ⟨100⟩)).run cramped = (.ok (), s) ∧
      s.save = some m ∧ Layout.size ≤ m.size ∧
      (perform (.setAddResetState 7001 ⟨100⟩)).run s = (.error .ledgerFull, t) ∧
      s.eventFlag 7001 = .ok false ∧ t.eventFlag 7001 = .ok true ∧ ¬t.ResetIsDue 7001 := by
  have hblank : Layout.size ≤ (Image.zeroed Layout.size).size := Image.full_zeroed
  obtain ⟨_, s, hfirst, hsets⟩ := run_setAddResetState (s := cramped) rfl hblank 7000 ⟨100⟩
  obtain ⟨rfl, hledger⟩ := hsets.room (by decide)
  have hsave : s.save = some ((Image.zeroed Layout.size).withFlag 7000 true) := hsets.save
  have hm : Layout.size ≤ ((Image.zeroed Layout.size).withFlag 7000 true).size := by
    rwa [Image.size_withFlag]
  obtain ⟨_, t, hsecond, hsets'⟩ := run_setAddResetState hsave hm 7001 ⟨100⟩
  have hfull : s.ledger.capacity ≤ s.ledger.entries.length := by
    rw [hledger]
    decide
  obtain ⟨rfl, hledger'⟩ := hsets'.full hfull
  refine ⟨s, t, _, hfirst, hsave, hm, hsecond, ?_, hsets'.flag (by decide), ?_⟩
  · rw [eventFlag_eq hsave hm (by decide), Image.bit_withFlag hblank, if_neg (by decide),
      Image.bit_zeroed]
  · rw [ResetIsDue, hledger', hledger]
    decide

end Session

end QuestLogic
