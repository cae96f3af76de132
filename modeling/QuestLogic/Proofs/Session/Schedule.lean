import QuestLogic.Proofs.Event.Flags
import QuestLogic.Proofs.Ledger.Schedule
import QuestLogic.Proofs.Party.Lights
import QuestLogic.Proofs.Session.Passage

/-!
# Scheduled flags

A pass over the ledger goes through unless the save image ends before the flags do, and is told by
lists (`Session.run_reduceLedger`): it leaves what outlasts the span, and writes the flags of what
does not, in order. Any number of passes then write each scheduled flag in the first pass by which
its time has passed and in no other, and leave what a single pass leaves that takes as much time as
all of them (`Session.reduceEach_schedule`).
-/

namespace QuestLogic

namespace Session

variable {s t : Session}

/-- Flags that are written leave the length of the image alone. -/
theorem not_isCutShort_of_save {ws : List (EventPtr × Bool)} (hs : ¬s.IsCutShort)
    (h : t.save = s.save.map (·.withFlags ws)) : ¬t.IsCutShort := by
  rintro ⟨m', hm', hsize⟩
  rw [h, Option.map_eq_some_iff] at hm'
  obtain ⟨m, hm, rfl⟩ := hm'
  rw [Image.size_withFlags] at hsize
  exact hs ⟨m, hm, hsize⟩

/-- Flags that are written after others. -/
theorem map_withFlags_append (ws ws' : List (EventPtr × Bool)) (save : Option Image) :
    (save.map (·.withFlags ws)).map (·.withFlags ws') = save.map (·.withFlags (ws ++ ws')) := by
  rw [Option.map_map]
  exact congrArg (save.map ·) (funext fun m => (m.withFlags_append ws ws').symm)

theorem run_setEvent (hs : ¬s.IsCutShort) (p : EventPtr) (on : Bool) :
    (setEvent p on).run s = (.ok (), { s with save := s.save.map (·.withFlags [(p, on)]) }) := by
  rcases hsave : s.save with _ | m
  · rw [setEvent, run_onSave_none hsave, Option.map_none, ← hsave]
  · have hm : Layout.size ≤ m.size := Nat.le_of_not_lt fun h => hs ⟨m, hsave, h⟩
    rw [setEvent, run_onSave_some hsave, Image.run_setFlag hm]
    rfl

/-! ## One pass -/

/-- The flag of an effect is written once its time has run out. -/
theorem flagsOf_filter_singleton (span : Time) (e : Effect) :
    flagsOf ([e].filter (¬·.Outlasts span)) =
      if (e.decay span).duration.isZero = true then e.scheduled?.toList else [] := by
  rw [Effect.isZero_decay, List.filter_cons, List.filter_nil]
  split_ifs
  · rw [flagsOf, List.filterMap_cons]
    cases e.scheduled? <;> rfl
  · rfl

/-- What comes of an effect goes through. Its flag is written once its time has run out, and a light
of the party goes out if the effect is a light that burns out. -/
theorem run_aftermath (hs : ¬s.IsCutShort) (span : Time) (e : Effect) :
    ∃ q level, Party.GoOut (if e.BurnsOut span then 1 else 0) s.party q ∧
      (aftermath e.duration (e.decay span)).run s = (.ok (), { s with
        party := q
        light := level
        save := s.save.map (·.withFlags (flagsOf ([e].filter (¬·.Outlasts span)))) }) := by
  have hnone : s.save.map (·.withFlags []) = s.save := Option.map_id'
  have hother : e.kind ≠ .light → ¬e.BurnsOut span := fun hkind h => hkind h.1
  rw [flagsOf_filter_singleton]
  unfold aftermath Effect.scheduled?
  rw [show (e.decay span).kind = e.kind from rfl, show (e.decay span).subject = e.subject from rfl]
  rcases hkind : e.kind with _ | _ | _ | _ | _ <;> dsimp only
  case setState | resetState =>
    rw [if_neg (hother (by rw [hkind]; decide))]
    refine ⟨s.party, s.light, rfl, ?_⟩
    split_ifs
    · exact run_setEvent hs _ _
    · rw [hnone, Step.run_pure]
  case light =>
    have hout : (!e.duration.isZero && (e.decay span).duration.isZero) = true ↔
        e.BurnsOut span := by
      rw [Effect.isZero_decay]
      simp [Effect.BurnsOut, hkind, Effect.Outlasts, Time.isZero, Nat.pos_iff_ne_zero]
    rw [Option.toList_none, ite_self, hnone]
    simp only [hout]
    split_ifs
    · refine ⟨s.putOut.2.party, 0, ⟨_, s.goesOut_putOut, rfl⟩, ?_⟩
      rw [Step.run_modify, putOut_eq]
    · exact ⟨s.party, s.light, rfl, rfl⟩
  case nothing | spell =>
    rw [if_neg (hother (by rw [hkind]; decide))]
    refine ⟨s.party, s.light, rfl, ?_⟩
    rw [Option.toList_none, ite_self, hnone, Step.run_pure]

/-- A pass over what is left of the effects takes time from each of them, refreshes the spells,
writes the flags of those that run out, and puts out a light of the party for each of those that
burn out. -/
theorem run_decayFrom_eq (hs : ¬s.IsCutShort) (span : Time) {done rest : List Effect}
    (hentries : s.ledger.entries = done ++ rest) :
    ∃ q level, Party.GoOut (rest.countP (·.BurnsOut span)) s.party q ∧
      (decayFrom span done rest).run s = (.ok (), { s with
        party := q
        light := level
        ledger.entries := done ++ rest.map (·.decay span)
        spells := (rest.map (·.decay span)).foldl refresh s.spells
        save := s.save.map (·.withFlags (flagsOf (rest.filter (¬·.Outlasts span)))) }) := by
  induction rest generalizing done s with
  | nil =>
    have hnone : s.save.map (·.withFlags []) = s.save := Option.map_id'
    refine ⟨s.party, s.light, rfl, ?_⟩
    rw [List.map_nil, ← hentries, List.filter_nil]
    exact congrArg (fun save => (Except.ok (), { s with save })) hnone.symm
  | cons e rest ih =>
    -- After the first effect has been seen to, the others are left.
    have hvisited : ¬(visited span done e rest s).IsCutShort := hs
    obtain ⟨r, level, hfirst, hu⟩ := run_aftermath hvisited span e
    obtain ⟨q, level', hlater, ht⟩ := ih
      (s := { visited span done e rest s with
        party := r, light := level
        save := s.save.map (·.withFlags (flagsOf ([e].filter (¬·.Outlasts span)))) })
      (not_isCutShort_of_save hs rfl) rfl
    have hcons : (e :: rest).filter (¬·.Outlasts span) =
        [e].filter (¬·.Outlasts span) ++ rest.filter (¬·.Outlasts span) :=
      List.filter_append [e] rest
    refine ⟨q, level', ?_, ?_⟩
    · rw [List.countP_cons, Nat.add_comm]
      simp only [decide_eq_true_eq]
      exact hfirst.trans hlater
    · rw [run_decayFrom_cons, Step.run_bind_ok hu, hcons, flagsOf_append, ← map_withFlags_append]
      refine ht.trans ?_
      dsimp only [visited]
      rw [List.append_assoc]
      rfl

/-- A pass goes through, and this is what it makes of the session, but for how bright the light is
then. -/
theorem run_reduceLedger_eq (hs : ¬s.IsCutShort) (span : Time) :
    ∃ q level, Party.GoOut (s.ledger.entries.countP (·.BurnsOut span)) s.party q ∧
      (reduceLedger span).run s = (.ok (), { s with
        party := q
        light := level
        ledger.entries := remaining span s.ledger.entries
        spells := (s.ledger.entries.map (·.decay span)).foldl refresh s.spells
        save := s.save.map (·.withFlags
          (flagsOf (s.ledger.entries.filter (¬·.Outlasts span)))) }) := by
  obtain ⟨q, level, hout, hu⟩ :=
    run_decayFrom_eq hs span (List.nil_append s.ledger.entries).symm
  have hsweep : (s.ledger.entries.map (·.decay span)).filter (!·.duration.isZero) =
      remaining span s.ledger.entries := by
    rw [remaining, List.filter_map]
    refine congrArg (List.map _) (List.filter_congr fun e _ => ?_)
    rw [Function.comp_apply, Effect.isZero_decay, decide_not, Bool.not_not]
  refine ⟨q, (brightest? (s.ledger.entries.map (·.decay span))).getD level, hout, ?_⟩
  rw [reduceLedger, Step.run_bind_ok (Step.run_get s), Step.run_bind_ok hu, ← hsweep]
  rfl

/-- A pass goes through. It leaves what outlasts the span, and writes the flags of what does not. -/
theorem run_reduceLedger (hs : ¬s.IsCutShort) (span : Time) :
    ∃ t, (reduceLedger span).run s = (.ok (), t) ∧
      t.ledger = { s.ledger with entries := remaining span s.ledger.entries } ∧
      t.save = s.save.map (·.withFlags (flagsOf (s.ledger.entries.filter (¬·.Outlasts span)))) := by
  obtain ⟨q, level, -, hrun⟩ := run_reduceLedger_eq hs span
  exact ⟨_, hrun, rfl, rfl⟩

/-! ## Several passes -/

/-- Passes over the ledger, one for each span. -/
def reduceEach : List Time → Step Session Unit
  | [] => pure ()
  | d :: rest => do
    reduceLedger d
    reduceEach rest

/-- Passes go through, write flags and nothing else to the image, and leave what outlasts them. -/
theorem run_reduceEach (hs : ¬s.IsCutShort) (spans : List Time) :
    ∃ t ws, (reduceEach spans).run s = (.ok (), t) ∧ t.save = s.save.map (·.withFlags ws) ∧
      t.ledger =
        { s.ledger with entries := spans.foldl (fun es d => remaining d es) s.ledger.entries } := by
  induction spans generalizing s with
  | nil => exact ⟨s, [], rfl, Option.map_id'.symm, rfl⟩
  | cons d rest ih =>
    obtain ⟨u, hu, hledger, hsave⟩ := run_reduceLedger hs d
    obtain ⟨t, ws, ht, htsave, htledger⟩ := ih (not_isCutShort_of_save hs hsave)
    refine ⟨t, _ ++ ws, ?_, htsave.trans (hsave ▸ map_withFlags_append _ ws s.save), ?_⟩
    · rw [reduceEach, Step.run_bind_ok hu, ht]
    · rw [htledger, hledger]
      rfl

/-- What the pass at position `k` writes to the image that the passes before it leave. -/
theorem save_reduceEach (hs : ¬s.IsCutShort) {spans : List Time} {k : Nat} (hk : k < spans.length) :
    ((reduceEach (spans.take (k + 1))).run s).2.save =
      ((reduceEach (spans.take k)).run s).2.save.map
        (·.withFlags (flagsIn spans k s.ledger.entries)) := by
  induction spans generalizing s k with
  | nil => exact absurd hk k.not_lt_zero
  | cons d rest ih =>
    obtain ⟨u, hu, hledger, hsave⟩ := run_reduceLedger hs d
    have hstep : ∀ ds, (reduceEach (d :: ds)).run s = (reduceEach ds).run u := fun ds => by
      rw [reduceEach, Step.run_bind_ok hu]
    rw [List.take_succ_cons, hstep]
    cases k with
    | zero => rw [List.take_zero, flagsIn_zero]; exact hsave
    | succ k =>
      have hrest := ih (not_isCutShort_of_save hs hsave) (Nat.lt_of_succ_lt_succ hk)
      rw [List.take_succ_cons, hstep, flagsIn_succ, hrest, hledger]

/--
Passes over the ledger of a session whose image reaches to the end of the flags all go through. Each
of them writes the flags of the effects that run out in it, in the order of the ledger, and nothing
else; every effect runs out in just one of them, the first by which all of its time has passed, or
in none if they take less time than it has. In the end the ledger is what a single pass leaves that
takes as much time as all of them.
-/
theorem reduceEach_schedule {m : Image} (hsave : s.save = some m) (hm : Layout.size ≤ m.size)
    {spans : List Time} (hne : spans ≠ []) :
    (∀ k < spans.length, ∃ before after t,
      ((reduceEach (spans.take k)).run s).2.save = some before ∧
        (reduceEach (spans.take (k + 1))).run s = (.ok (), t) ∧ t.save = some after ∧
        (Image.writeEach (flagsIn spans k s.ledger.entries)).run before = (.ok (), after)) ∧
      (∀ e : Effect,
        (e.duration.toNat ≤ elapsed spans spans.length →
          ∃! k, k < spans.length ∧ e.RunsOutIn spans k) ∧
        (elapsed spans spans.length < e.duration.toNat → ∀ k, ¬e.RunsOutIn spans k)) ∧
      ∃ t u, (reduceEach spans).run s = (.ok (), t) ∧
        (reduceLedger (Time.total spans)).run s = (.ok (), u) ∧ t.ledger = u.ledger ∧
        u.ledger.entries = remaining (Time.total spans) s.ledger.entries := by
  have hs : ¬s.IsCutShort := by
    rintro ⟨m', hm', hlt⟩
    rw [hsave, Option.some.injEq] at hm'
    rw [← hm'] at hlt
    exact absurd hlt (Nat.not_lt.2 hm)
  refine ⟨fun k hk => ?_, fun e => ?_, ?_⟩
  -- The image is there before each pass and as long as it was.
  · obtain ⟨u, ws, hu, husave, -⟩ := run_reduceEach hs (spans.take k)
    obtain ⟨t, -, ht, -, -⟩ := run_reduceEach hs (spans.take (k + 1))
    have hwrites := save_reduceEach hs hk
    rw [ht, hu, husave, hsave] at hwrites
    have hfull : Layout.size ≤ (m.withFlags ws).size := by rwa [Image.size_withFlags]
    exact ⟨m.withFlags ws, _, t, by rw [hu, husave, hsave]; rfl, ht, hwrites,
      Image.run_writeEach hfull _⟩
  · exact ⟨Effect.existsUnique_runsOutIn hne, fun h _ => Effect.not_runsOutIn h⟩
  · obtain ⟨d, rest, rfl⟩ := List.exists_cons_of_ne_nil hne
    obtain ⟨t, -, ht, -, hledger⟩ := run_reduceEach hs (d :: rest)
    obtain ⟨u, hu, hledger', -⟩ := run_reduceLedger hs (Time.total (d :: rest))
    rw [List.foldl_cons, foldl_remaining, ← hledger'] at hledger
    exact ⟨t, u, ht, hu, hledger, congrArg Ledger.entries hledger'⟩

/-- Of two scheduled flags the first is due in the second of three passes, and the other in none. -/
theorem reduceEach_schedule_three_passes :
    ∃ s t : Session, ∃ before after : Image,
      s.save = some (.zeroed Layout.size) ∧ Layout.size ≤ (Image.zeroed Layout.size).size ∧
        s.ledger.entries = [⟨.setState, 0, 0x40, ⟨100⟩⟩, ⟨.resetState, 0, 0x41, ⟨200⟩⟩] ∧
        ((reduceEach [⟨60⟩]).run s).2.save = some before ∧
        ((reduceEach [⟨60⟩, ⟨60⟩]).run s).2.save = some after ∧
        (Image.writeEach [(0x40, true)]).run before = (.ok (), after) ∧
        (reduceEach [⟨60⟩, ⟨60⟩, ⟨60⟩]).run s = (.ok (), t) ∧
        t.ledger.entries = [⟨.resetState, 0, 0x41, ⟨20⟩⟩] := by
  let s : Session := { ofSettings .usual .initial with
    save := some (.zeroed Layout.size),
    ledger := ⟨[⟨.setState, 0, 0x40, ⟨100⟩⟩, ⟨.resetState, 0, 0x41, ⟨200⟩⟩], 20⟩ }
  have hm : Layout.size ≤ (Image.zeroed Layout.size).size :=
    Nat.le_of_eq (Image.size_zeroed _).symm
  have hne : ([⟨60⟩, ⟨60⟩, ⟨60⟩] : List Time) ≠ [] := List.cons_ne_nil _ _
  have hsave : s.save = some (.zeroed Layout.size) := rfl
  have hflags : flagsIn [⟨60⟩, ⟨60⟩, ⟨60⟩] 1 s.ledger.entries = [(0x40, true)] := by
    decide +kernel
  have hleft : remaining (Time.total [⟨60⟩, ⟨60⟩, ⟨60⟩]) s.ledger.entries =
      [⟨.resetState, 0, 0x41, ⟨20⟩⟩] := by decide +kernel
  obtain ⟨hpasses, -, t, u, ht, -, hledger, hentries⟩ := reduceEach_schedule hsave hm hne
  obtain ⟨before, after, v, hbefore, hv, hafter, hwrite⟩ := hpasses 1 (by decide)
  rw [hflags] at hwrite
  refine ⟨s, t, before, after, hsave, hm, rfl, hbefore, ?_, hwrite, ht, ?_⟩
  · rw [show (reduceEach [⟨60⟩, ⟨60⟩]).run s = (.ok (), v) from hv, hafter]
  · rw [hledger, hentries, hleft]

end Session

end QuestLogic
