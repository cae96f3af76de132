import Mathlib.Logic.Function.Basic
import QuestLogic.Proofs.Session.Begun
import QuestLogic.Proofs.Session.Regions

/-!
# The purse from one chapter to the next

The chapters from the fourth to the seventh set the purse aside for the next one. Within a chapter
nothing touches what has been set aside (`Session.stashes_of_runs`): flags lie past it, and the
fields that saving writes before it, as long as the ledger fits into its own. So the purse that a
chapter sets aside is the one that the next chapter begins with (`Session.gold_of_next_chapter`).
-/

namespace QuestLogic.Session

variable {s t u v : Session} {m : Image} {c : Chapter} {d : Deed} {story : Story}
  {dialogs : DialogStore} {start : ChapterStart} {purse : Chapter → Except Fault Royals}

/-! ## Purses that are left alone -/

/-- The change leaves the image where it is and every purse in it alone. -/
def Deed.SparesStash : Deed → Prop
  | .image d => d.SparesStash
  | .load _ | .unload => False
  | _ => True

/-- The session has an image, in which the purses of the chapters are these. -/
def Stashes (s : Session) (purse : Chapter → Except Fault Royals) : Prop :=
  ∃ m, s.save = some m ∧ ∀ k, m.stashed k = purse k

theorem Change.stashes (h : Change d s t) (hd : d.SparesStash) (hs : s.Stashes purse) :
    t.Stashes purse :=
  h.keeps_save (fun hw hchange hpurse k => (hchange.stashed hw k).trans (hpurse k)) hd hs

/-- What is made of such changes leaves the purses alone. -/
theorem stashes_of_obeys {α : Type} {x : Step Session α} (hx : (rule Deed.SparesStash).Obeys x)
    (hs : s.Stashes purse) {r : Except Fault α} (h : x.run s = (r, t)) : t.Stashes purse := by
  have hkept := hx.keeps (P := (·.Stashes purse)) (fun hlead hs =>
    hlead.keeps (fun hd hchange => hchange.stashes hd) hs) hs
  rwa [h] at hkept

/-- Flags lie past the purses. -/
theorem Deed.WritesFlags.sparesStash (hd : d.WritesFlags) : d.SparesStash := by
  cases d with
  | image => exact Image.Deed.WritesFlags.sparesStash hd
  | load | unload => exact hd
  | _ => trivial

theorem sparesStash_of_passage (hd : d.OfPassage) : d.SparesStash :=
  (writesFlags_of_passage hd).sparesStash

/-- No action touches a purse that has been set aside. -/
theorem sparesStash_of_action {a : Action} (hd : a.Does d) : d.SparesStash :=
  (writesFlags_of_action hd).sparesStash

/-- What saving writes ends before the first purse. -/
theorem sparesStash_of_save {w : Image.Deed} (hw : OfSave w) : w.SparesStash := by
  obtain ⟨_, _, h, hend⟩ := hw.exists_field
  exact Image.sparesStash_of_field h hend

/-! ## Within a chapter -/

/-- The move begins no chapter, and takes away no image nor puts another in its place. -/
def Move.WithinChapter : Move → Prop
  | transition _ _ _ | load _ | takeSave => False
  | _ => True

/-- What is not a flag is a field that lies before the purses. -/
theorem sparesStash_of_move {move : Move} (hmove : move.WithinChapter) (hd : move.Does d) :
    d.SparesStash := by
  cases move with
  | transition | load | takeSave => exact hmove.elim
  | saveState =>
    obtain ⟨_, rfl, hw⟩ := hd
    exact sparesStash_of_save hw
  | setChapter =>
    obtain rfl | ⟨_, rfl, hw⟩ := hd
    · trivial
    · exact Image.sparesStash_of_field hw (by decide)
  | _ => exact (writesFlags_of_move (by trivial) hd).sparesStash

/-- Whatever happens within a chapter leaves the purses alone. -/
theorem stashes_of_runs (hrun : Runs Move.WithinChapter s t) (hfit : s.FitsLedger)
    (hs : s.Stashes purse) : t.Stashes purse :=
  hrun.keeps (fun _ hv _ hd => sparesStash_of_move hv hd) (fun hd h => h.stashes hd) hfit hs

/-- A change that spares the purses leaves the image as long as it was. -/
theorem Deed.SparesStash.keepsLength (hd : d.SparesStash) : d.KeepsLength := by
  cases d with
  | load => exact hd
  | _ => trivial

/-- Nor does the image become shorter within a chapter. -/
theorem not_isCutShort_of_runs (hrun : Runs Move.WithinChapter s t) (hfit : s.FitsLedger)
    (hs : ¬s.IsCutShort) : ¬t.IsCutShort :=
  hrun.keeps (I := fun s => ¬s.IsCutShort)
    (fun _ hv _ hd => (sparesStash_of_move hv hd).keepsLength)
    (fun hd h hs => h.not_isCutShort hd hs) hfit hs

/-! ## From one chapter to the next -/

/-- The ledger still fits once a chapter has begun. -/
theorem fitsLedger_of_transition (hfit : s.FitsLedger)
    (h : (transition c story dialogs).run s = (.ok start, t)) : t.FitsLedger := by
  have hlead : Leads (fun _ => True) s ((transition c story dialogs).run s).2 :=
    (obeys_transition (fun _ _ => trivial) (fun _ _ => trivial) c story s).1
  rw [h] at hlead
  exact hlead.fitsLedger hfit

theorem ne_first_of_le (h : 4 ≤ c.val) : c ≠ .first := fun hc => absurd h (by rw [hc]; decide)

theorem obeys_daybreak_sparing (c : Chapter) (start : ChapterStart) :
    (rule Deed.SparesStash).Obeys (daybreak c start) :=
  obeys_daybreak trivial (fun _ hd => sparesStash_of_passage hd)
    (fun _ hd => Image.sparesStash_of_field hd (by decide)) c start

/-- What follows once the purse has been set aside. -/
theorem obeys_rest_sparing (c : Chapter) (story : Story) (d : DialogStore) (start : ChapterStart) :
    (rule Deed.SparesStash).Obeys (do settlePurse c; rally; tell story d start) := by
  have hpassage : ∀ d, Deed.OfPassage d → d.SparesStash := fun _ hd => sparesStash_of_passage hd
  refine (obeys_settlePurse hpassage c).bind fun _ => (obeys_rally hpassage).bind fun _ => ?_
  refine obeys_tell (fun d hd => ?_) story start
  obtain ⟨_, _, -, a, -, hd⟩ := hd
  exact sparesStash_of_action hd

/-- Setting a purse aside changes that purse and no other, and nothing else. -/
theorem stashes_of_setAside (hc : c ≠ .first) (hs : s.Stashes purse)
    (h : (setAside c).run s = (.ok (), t)) :
    t.party = s.party ∧ t.Stashes (Function.update purse c (.ok s.party.gold)) := by
  obtain ⟨m, hm, hpurse⟩ := hs
  rw [setAside, if_pos hc, Step.run_bind_ok (Step.run_get s), run_onSave_some hm] at h
  rcases hstash : (Image.setStash c s.party.gold).run m with ⟨e | _, m'⟩
  · rw [hstash] at h
    cases h
  · rw [hstash] at h
    cases h
    obtain ⟨hset, hothers⟩ := Image.stashed_of_setStash hstash
    refine ⟨rfl, m', rfl, fun k => ?_⟩
    by_cases hk : k = c
    · rw [hk, Function.update_self, hset]
    · rw [Function.update_of_ne hk, hothers k hk, hpurse k]

/-- A chapter sets aside the purse that it finds, and leaves those of the other chapters alone. -/
theorem stashes_of_transition (hc : c ≠ .first) (hs : s.Stashes purse)
    (h : (transition c story dialogs).run s = (.ok start, t)) :
    t.Stashes (Function.update purse c (.ok s.party.gold)) := by
  obtain ⟨start', s₁, s₂, s₃, s₄, -, hdawn, haside, hsettle, hrally, htell⟩ := transition_eq_ok h
  have hcompany := (together_daybreak c start' s).company
  rw [hdawn] at hcompany
  have hs₁ := stashes_of_obeys (obeys_daybreak_sparing c start') hs hdawn
  obtain ⟨-, hs₂⟩ := stashes_of_setAside hc hs₁ haside
  rw [hcompany.gold] at hs₂
  refine stashes_of_obeys (obeys_rest_sparing c story dialogs start') hs₂ (r := .ok start) ?_
  rw [Step.run_bind_ok hsettle, Step.run_bind_ok hrally, htell]

/-- The chapters from the fifth to the eighth bring back the purse of the chapter before. -/
theorem gold_of_settlePurse (hlow : 5 ≤ c.val) (hhigh : c.val ≤ 8) (hs : s.Stashes purse)
    (h : (settlePurse c).run s = (.ok (), t)) : purse ⟨c.val - 1⟩ = .ok t.party.gold := by
  obtain ⟨m, hm, hpurse⟩ := hs
  have h3 : c.val ≠ 3 := fun h3 => absurd hlow (by rw [h3]; decide)
  have h4 : c.val ≠ 4 := fun h4 => absurd hlow (by rw [h4]; decide)
  have hrange : (5 ≤ c.val && c.val ≤ 8) = true := by simp [hlow, hhigh]
  rw [settlePurse, if_neg h3, if_neg h4, if_pos hrange] at h
  obtain ⟨gold, _, hread, h⟩ := Step.run_bind_eq_ok h
  rw [Step.run_view, readSave, hm, Prod.mk.injEq] at hread
  obtain ⟨hgold, rfl⟩ := hread
  rw [setGold, Step.run_bind_ok (Step.run_modify _ _)] at h
  have hsame : t.party.gold = gold := by
    split_ifs at h
    · have hcompany := (together_onSave (Image.setFlag chapter7Flag true)
        { s with party.gold := gold }).1.company
      rw [setEvent] at h
      rw [h] at hcompany
      exact hcompany.gold
    · cases h
      rfl
  rw [← hpurse, hsame]
  exact hgold

/-- Where nothing is told, the purse of the chapter before is the one that a chapter begins with. -/
theorem gold_of_transition (hlow : 5 ≤ c.val) (hhigh : c.val ≤ 8) (hs : s.Stashes purse)
    (hquiet : Quiet story c) (h : (transition c story dialogs).run s = (.ok start, t)) :
    purse ⟨c.val - 1⟩ = .ok t.party.gold := by
  obtain ⟨start', s₁, s₂, s₃, s₄, hstart, hdawn, haside, hsettle, hrally, htell⟩ :=
    transition_eq_ok h
  have hc := ne_first_of_le (UInt8.le_trans (by decide) hlow)
  have hs₁ := stashes_of_obeys (obeys_daybreak_sparing c start') hs hdawn
  obtain ⟨-, hs₂⟩ := stashes_of_setAside hc hs₁ haside
  have hgold := gold_of_settlePurse hlow hhigh hs₂ hsettle
  -- It is another chapter whose purse has just been set aside.
  have hne : (⟨c.val - 1⟩ : Chapter) ≠ c := fun heq => by
    have hval : (c.val - 1).toNat = c.val.toNat := congrArg (·.val.toNat) heq
    rw [UInt8.le_iff_toNat_le] at hlow
    rw [UInt8.toNat_sub_of_le _ _ (UInt8.le_iff_toNat_le.2 (Nat.le_trans (by decide) hlow))] at hval
    have hpos : 5 ≤ c.val.toNat := hlow
    have hone : c.val.toNat - 1 = c.val.toNat := hval
    omega
  rw [Function.update_of_ne hne] at hgold
  have hcompany := (allowsRally_together.rally s₃).1.company
  rw [hrally] at hcompany
  rw [tell_of_quiet hquiet hstart, Step.run_pure, Prod.mk.injEq] at htell
  rw [hgold, ← htell.2, hcompany.gold]

/-- A chapter from the fourth to the seventh is followed by one from the fifth to the eighth. -/
theorem succ_within (hlow : 4 ≤ c.val) (hhigh : c.val ≤ 7) : 5 ≤ c.val + 1 ∧ c.val + 1 ≤ 8 := by
  rw [UInt8.le_iff_toNat_le] at hlow hhigh
  have hle : c.val.toNat ≤ 7 := hhigh
  have hsucc : (c.val + 1).toNat = c.val.toNat + 1 := by
    rw [UInt8.toNat_add]
    exact Nat.mod_eq_of_lt (by change c.val.toNat + 1 < 256; omega)
  rw [UInt8.le_iff_toNat_le, UInt8.le_iff_toNat_le, hsucc]
  exact ⟨Nat.succ_le_succ hlow, Nat.succ_le_succ hhigh⟩

/--
The purse that a chapter from the fourth to the seventh sets aside survives the chapter. Whatever
dialogs, time, encounters, flags and saving do until then, and whether or not they meet a fault, the
next chapter begins with the purse that this one found, if nothing is told as it opens; and of the
purses in the image only those of the two chapters are not what they were before. The ledger is to
fit into its room, as it does in every session in play (`Reachable.fitsLedger`).
-/
theorem gold_of_next_chapter {story' : Story} {dialogs' : DialogStore} {start' : ChapterStart}
    (hfit : s.FitsLedger) (hsave : s.save = some m) (hlow : 4 ≤ c.val) (hhigh : c.val ≤ 7)
    (hfirst : (transition c story dialogs).run s = (.ok start, t))
    (hrun : Runs Move.WithinChapter t u) (hquiet : Quiet story' ⟨c.val + 1⟩)
    (hnext : (transition ⟨c.val + 1⟩ story' dialogs').run u = (.ok start', v)) :
    v.party.gold = s.party.gold ∧
      ∃ m', v.save = some m' ∧
        ∀ k, k ≠ c → k ≠ ⟨c.val + 1⟩ → m'.stashed k = m.stashed k := by
  obtain ⟨hlow', hhigh'⟩ := succ_within hlow hhigh
  have hs : s.Stashes m.stashed := ⟨m, hsave, fun _ => rfl⟩
  have ht := stashes_of_transition (ne_first_of_le hlow) hs hfirst
  have hu := stashes_of_runs hrun (fitsLedger_of_transition hfit hfirst) ht
  have hgold := gold_of_transition hlow' hhigh' hu hquiet hnext
  have hnotfirst := ne_first_of_le (c := ⟨c.val + 1⟩) (UInt8.le_trans (by decide) hlow')
  obtain ⟨m', hv, hstashed⟩ := stashes_of_transition hnotfirst hu hnext
  refine ⟨?_, m', hv, fun k hk hk' => ?_⟩
  · rw [UInt8.add_sub_cancel, Function.update_self, Except.ok.injEq] at hgold
    exact hgold.symm
  · rw [hstashed, Function.update_of_ne hk', Function.update_of_ne hk]

/-- Royals that are handed out in the fourth chapter are gone when the fifth one begins, although
they have been saved, and the purse of the third chapter is where it was. -/
theorem gold_of_next_chapter_fifth :
    ∃ (s t u v : Session) (m m' : Image) (story : Story) (start : ChapterStart),
      s.FitsLedger ∧ s.save = some m ∧ s.party.gold = ⟨500⟩ ∧ m.stashed ⟨3⟩ = .ok ⟨77⟩ ∧
        (transition ⟨4⟩ story .empty).run s = (.ok start, t) ∧
        u = (saveState.run ((perform (.giveItem .royals 0 7)).run t).2).2 ∧
        Runs Move.WithinChapter t u ∧ Quiet story ⟨5⟩ ∧
        (transition ⟨5⟩ story .empty).run u = (.ok start, v) ∧ v.party.gold = ⟨500⟩ ∧
        v.save = some m' ∧ m'.stashed ⟨3⟩ = .ok ⟨77⟩ := by
  let m : Image := (Image.zeroed Layout.size).putBytes (Layout.stash + 8) (bytes32 77)
  let s : Session := { ofSettings .usual .initial with save := some m, party.gold := ⟨500⟩ }
  let start : ChapterStart := ⟨⟨1⟩, ⟨0, 0⟩, ⟨0⟩, none⟩
  let story : Story := ⟨[(⟨4⟩, start), (⟨5⟩, start)], none⟩
  have hsave : s.save = some m := rfl
  have hzeroed : Layout.size = (Image.zeroed Layout.size).size := (Image.size_zeroed _).symm
  have hm : Layout.size ≤ m.size := by rw [Image.size_putBytes, ← hzeroed]
  have hroom : (Image.zeroed Layout.size).Fits (Layout.stash + 8) (bytes32 77) :=
    .inr (by rw [← hzeroed]; decide)
  have hthird : m.stashed ⟨3⟩ = .ok ⟨77⟩ := by
    have hoffset : Image.stashOffset ⟨3⟩ = .ok (Layout.stash + 8) := rfl
    rw [Image.stashed_of_offset hoffset]
    exact congrArg (Royals.mk <$> ·) (Image.contains_putBytes hroom).readU32
  have hfit : s.FitsLedger := ⟨rfl, Nat.zero_le _⟩
  have hids : (s.party.roster.map (·.id)).Nodup := by decide +kernel
  have hcast : ∀ id ∈ s.party.roster.map (·.id), id.isCast = true := by decide +kernel
  have hstart4 : story.start ⟨4⟩ = .ok start := rfl
  have hstart5 : story.start ⟨5⟩ = .ok start := rfl
  have hquiet4 : Quiet story ⟨4⟩ := ⟨rfl, fun _ h => by cases h; rfl⟩
  have hquiet5 : Quiet story ⟨5⟩ := ⟨rfl, fun _ h => by cases h; rfl⟩
  obtain ⟨t, m₁, hfirst, htsave, hbegun⟩ :=
    run_transition hsave hm hids hstart4 rfl hcast .empty
  rw [tell_of_quiet hquiet4 hstart4] at hfirst
  let w : Session := ((perform (.giveItem .royals 0 7)).run t).2
  let u : Session := (saveState.run w).2
  have hrun : Runs Move.WithinChapter t u :=
    (Relation.ReflTransGen.single ⟨.perform (.giveItem .royals 0 7), trivial, rfl⟩).tail
      ⟨.saveState, trivial, rfl⟩
  -- The royals go to the purse, and saving leaves the party alone.
  have hwsave : w.save = some m₁ := htsave
  have hu : u = { w with save := some ((writeFields w).run m₁).2 } :=
    congrArg Prod.snd (run_saveState hwsave)
  have hroster : u.party.roster.map (·.id) = s.party.roster.map (·.id) := by
    rw [hu]
    exact hbegun.ids
  have htfit := fitsLedger_of_transition hfit hfirst
  have hsound := not_isCutShort_of_runs hrun htfit
    (not_isCutShort htsave (by rw [hbegun.size]; exact hm))
  obtain ⟨m₂, husave, -⟩ := stashes_of_runs hrun htfit ⟨m₁, htsave, fun _ => rfl⟩
  have hm₂ : Layout.size ≤ m₂.size := Nat.le_of_not_lt fun hlt => hsound ⟨m₂, husave, hlt⟩
  obtain ⟨v, -, hnext, -, -⟩ := run_transition husave hm₂ (by rwa [hroster]) hstart5 rfl
    (by rwa [hroster]) .empty
  rw [tell_of_quiet hquiet5 hstart5] at hnext
  obtain ⟨hgold, m', hvsave, hothers⟩ := gold_of_next_chapter hfit hsave (by decide) (by decide)
    hfirst hrun hquiet5 hnext
  exact ⟨s, t, u, v, m, m', story, start, hfit, hsave, rfl, hthird, hfirst, rfl, hrun, hquiet5,
    hnext, hgold, hvsave, (hothers _ (by decide) (by decide)).trans hthird⟩

end QuestLogic.Session
