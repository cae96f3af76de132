import QuestLogic.Proofs.Session.Action
import QuestLogic.Proofs.Session.Begun
import QuestLogic.Proofs.Session.Encounter

/-!
# What a new chapter leaves of timed effects

A chapter takes time from the timed effects by a fixed number of rounds when the day breaks
(`Session.run_daybreak`), and nothing that follows touches the ledger as long as nothing is told
(`Session.sameLedger_setAside` and its companions). So what is left when a chapter has begun are the
effects that outlast the rounds, with the rest of their time, and all of them have run out just if
none had more time than the rounds take (`Session.ledger_of_transition`).
-/

namespace QuestLogic.Session

variable {s t : Session} {m : Image} {c : Chapter} {story : Story} {dialogs : DialogStore}
  {start : ChapterStart}

/-! ## What leaves the ledger alone -/

/-- The ledger is what it was. -/
def sameLedger : Rule Session where
  leads s t := t.ledger = s.ledger
  permits _ _ := True
  refl _ := rfl
  trans h h' := h'.trans h

theorem sameLedger_onSave (x : Step Image Unit) : sameLedger.Obeys (onSave x) :=
  obeys_onSave_of_image (fun _ _ => rfl) fun _ _ => trivial

theorem sameLedger_setAside (c : Chapter) : sameLedger.Obeys (setAside c) := by
  unfold setAside
  split_ifs
  · exact Rule.obeys_get_bind fun _ => sameLedger_onSave _
  · exact Rule.obeys_pure _

theorem sameLedger_settlePurse (c : Chapter) : sameLedger.Obeys (settlePurse c) := by
  have hgold : ∀ gold, sameLedger.Obeys (setGold gold) := fun gold =>
    Rule.obeys_modify fun _ => rfl
  have hview : sameLedger.Obeys
      (.view fun s : Session => s.readSave .none (·.stashed ⟨c.val - 1⟩)) :=
    Rule.obeys_view fun _ _ _ => trivial
  unfold settlePurse
  split_ifs
  · exact sameLedger_onSave _
  · exact hgold _
  · exact hview.bind fun _ => (hgold _).bind fun _ => sameLedger_onSave _
  · exact hview.bind fun _ => (hgold _).bind fun _ => Rule.obeys_pure _
  · exact Rule.obeys_pure _

theorem allowsRally_sameLedger : AllowsRally sameLedger where
  restore := Rule.obeys_modify fun _ => rfl
  see _ := obeys_changeMember_of_party (fun _ => rfl) fun _ _ => trivial
  clear _ := sameLedger_onSave _

/-! ## The beginning of a chapter -/

/-- What outlasts the rounds is left, and nothing else. -/
theorem entries_of_transition (hsave : s.save = some m) (hm : Layout.size ≤ m.size)
    (hquiet : Quiet story c) (h : (transition c story dialogs).run s = (.ok start, t)) :
    t.ledger.entries = remaining (expiryTime expiryRounds) s.ledger.entries := by
  obtain ⟨start', s₁, s₂, s₃, s₄, hstart, hdawn, haside, hsettle, hrally, htell⟩ :=
    transition_eq_ok h
  obtain ⟨_, _, hdawn', -, -, hledger⟩ := run_daybreak hsave hm c start'
  rw [hdawn] at hdawn'
  cases hdawn'
  have h₂ := (sameLedger_setAside c s₁).1
  have h₃ := (sameLedger_settlePurse c s₂).1
  have h₄ := (allowsRally_sameLedger.rally s₃).1
  rw [haside] at h₂
  rw [hsettle] at h₃
  rw [hrally] at h₄
  rw [tell_of_quiet hquiet hstart, Step.run_pure, Prod.mk.injEq] at htell
  obtain ⟨-, rfl⟩ := htell
  rw [← hledger]
  exact congrArg Ledger.entries (h₄.trans (h₃.trans h₂))

/-- Nothing is left just if nothing outlasts the span. -/
theorem remaining_eq_nil {span : Time} {es : List Effect} :
    remaining span es = [] ↔ ∀ e ∈ es, e.duration.toNat ≤ span.toNat := by
  rw [remaining, List.map_eq_nil_iff, List.filter_eq_nil_iff]
  refine forall₂_congr fun e _ => ?_
  rw [decide_eq_true_eq, Effect.Outlasts, Nat.not_lt]

/--
Over an image that reaches to the end of the flags, a chapter that begins without anything being
told leaves the timed effects that outlast its rounds, with the rest of their time. So all of them
have run out just if none had more time left than all of the rounds take.
-/
theorem ledger_of_transition (hsave : s.save = some m) (hm : Layout.size ≤ m.size)
    (hquiet : Quiet story c) (h : (transition c story dialogs).run s = (.ok start, t)) :
    t.ledger.entries = remaining (expiryTime expiryRounds) s.ledger.entries ∧
      (t.ledger.entries = [] ↔
        ∀ e ∈ s.ledger.entries, e.duration.toNat ≤ expiryRounds * expirySpan.toNat) := by
  have hentries := entries_of_transition hsave hm hquiet h
  refine ⟨hentries, ?_⟩
  rw [hentries, remaining_eq_nil, toNat_expiryTime]

/-- A new game on a blank image, after a dialog that sets a flag for a while. -/
def promised (duration : Time) : Session :=
  ((perform (.setAddResetState 7000 duration)).run onBlank).2

/-- A story whose second chapter opens in silence. -/
def silent : Story := ⟨[(⟨2⟩, ⟨⟨1⟩, ⟨0, 0⟩, ⟨0⟩, none⟩)], none⟩

theorem quiet_silent : Quiet silent ⟨2⟩ := ⟨rfl, fun _ h => by cases h; rfl⟩

/-- The dialog leaves one timed effect, and the second chapter begins after it. -/
theorem exists_transition_promised (duration : Time) : ∃ m start t,
    (promised duration).save = some m ∧ Layout.size ≤ m.size ∧
      (promised duration).ledger.entries = [⟨.resetState, Effect.apart, 7000, duration⟩] ∧
      (transition ⟨2⟩ silent .empty).run (promised duration) = (.ok start, t) := by
  let m : Image := (Image.zeroed Layout.size).withFlags [(7000, true)]
  let u : Session := { onBlank with
    save := some m, ledger := ⟨[⟨.resetState, Effect.apart, 7000, duration⟩], 20⟩ }
  have hs : ¬onBlank.IsCutShort := not_isCutShort rfl Image.full_zeroed
  have hset : (setEvent 7000 true).run onBlank = (.ok (), { onBlank with save := some m }) :=
    run_setEvent hs 7000 true
  have hadd : (addEffect .resetState 7000 Effect.apart duration).run
      { onBlank with save := some m } = (.ok (), u) := Step.run_update_ok rfl
  have hperform : (perform (.setAddResetState 7000 duration)).run onBlank = (.ok (), u) := by
    rw [perform, Step.run_bind_ok hset, hadd]
  have hu : promised duration = u := congrArg Prod.snd hperform
  have hm : Layout.size ≤ m.size := by
    rw [Image.size_withFlags]
    exact Image.full_zeroed
  have hids : (Party.initial.roster.map (·.id)).Nodup := by decide +kernel
  have hcast : ∀ id ∈ Party.initial.roster.map (·.id), id.isCast = true := by decide +kernel
  have hstart : silent.start ⟨2⟩ = .ok ⟨⟨1⟩, ⟨0, 0⟩, ⟨0⟩, none⟩ := rfl
  obtain ⟨t, -, hrun, -, -⟩ := run_transition (s := u) rfl hm hids hstart rfl hcast .empty
  rw [tell_of_quiet quiet_silent hstart] at hrun
  rw [hu]
  exact ⟨m, _, t, rfl, hm, rfl, hrun⟩

/-- An effect that lasts no longer than the rounds has run out when the chapter has begun. -/
theorem ledger_of_transition_in_time : ∃ m start t,
    (promised ⟨2400000⟩).save = some m ∧ Layout.size ≤ m.size ∧ Quiet silent ⟨2⟩ ∧
      (transition ⟨2⟩ silent .empty).run (promised ⟨2400000⟩) = (.ok start, t) ∧
      t.ledger.entries = [] := by
  obtain ⟨m, start, t, hsave, hm, hledger, hrun⟩ := exists_transition_promised ⟨2400000⟩
  obtain ⟨-, hempty⟩ := ledger_of_transition hsave hm quiet_silent hrun
  rw [hledger] at hempty
  exact ⟨m, start, t, hsave, hm, quiet_silent, hrun, hempty.2 (by decide +kernel)⟩

/-- An effect that lasts a tick longer is still there. -/
theorem ledger_of_transition_too_long : ∃ m start t,
    (promised ⟨2400001⟩).save = some m ∧ Layout.size ≤ m.size ∧ Quiet silent ⟨2⟩ ∧
      (transition ⟨2⟩ silent .empty).run (promised ⟨2400001⟩) = (.ok start, t) ∧
      t.ledger.entries = [⟨.resetState, Effect.apart, 7000, ⟨1⟩⟩] := by
  obtain ⟨m, start, t, hsave, hm, hledger, hrun⟩ := exists_transition_promised ⟨2400001⟩
  have hleft := entries_of_transition hsave hm quiet_silent hrun
  rw [hledger] at hleft
  exact ⟨m, start, t, hsave, hm, quiet_silent, hrun, hleft.trans (by decide +kernel)⟩

end QuestLogic.Session
