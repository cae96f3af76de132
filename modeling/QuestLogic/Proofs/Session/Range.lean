import QuestLogic.Proofs.Party.Range
import QuestLogic.Proofs.Party.Tidy
import QuestLogic.Proofs.Session.Roster

/-!
# Characters within their ranges and tidy inventories in play

What play does to a party keeps its characters within their ranges (`Party.Change.inRange`) and all
that they carry tidy (`Inventory.Change.tidy`). So it is throughout every run of a session that
begins with the party of the story and is given no other (`Session.inRange_of_runs`,
`Session.tidy_of_runs`).
-/

namespace QuestLogic.Session

variable {s : Session}

/--
In every run of a session with the party of the story every member of the roster has each of the
sixteen stored skills at most at its maximum, in its current and in its true value, and no maximum
but those of health and stamina is above one hundred; and no condition has gone further than one
hundred percent.
-/
theorem inRange_of_runs {settings : Settings}
    (h : Runs Move.KeepsParty (ofSettings settings .initial) s) :
    ∀ c ∈ s.party.roster,
      (∀ t ∈ SkillType.stored, (c.skills.record t).current ≤ (c.skills.record t).max ∧
        (c.skills.record t).trueSkill ≤ (c.skills.record t).max ∧
        (t ≠ .health → t ≠ .stamina → (c.skills.record t).max ≤ 100)) ∧
      ∀ k, c.conditions.degree k ≤ 100 := by
  have hkept : s.party.InRange := h.keeps (K := (· ≠ .regroup)) (I := fun s => s.party.InRange)
    (fun _ hv _ hd => ne_regroup_of_move hv hd)
    (fun hd h hs => h.keeps_party Party.Change.inRange hd hs)
    (fitsLedger_ofSettings settings .initial) Party.inRange_initial
  intro c hc
  exact ⟨fun t ht => (hkept c hc).record ht, fun k => (hkept c hc).conditions k.slot⟩

/-- The health of those on the road is lowered for good by more than there was of it: Locklear has
none left that could be healed, and is within his ranges still. -/
theorem inRange_of_runs_lowered : ∃ s c,
    Runs Move.KeepsParty (ofSettings .usual .initial) s ∧ c ∈ s.party.roster ∧
      c.id = .locklear ∧ (c.skills.record .health).max = 0 ∧
      (∀ t ∈ SkillType.stored, (c.skills.record t).current ≤ (c.skills.record t).max ∧
        (c.skills.record t).trueSkill ≤ (c.skills.record t).max ∧
        (t ≠ .health → t ≠ .stamina → (c.skills.record t).max ≤ 100)) ∧
      ∀ k, c.conditions.degree k ≤ 100 := by
  let start : Session := ofSettings .usual .initial
  let lowered : Action := .gainSkill 1 .gainHealth (-50) (-50)
  let s : Session := ((perform lowered).run start).2
  have hrun : Runs Move.KeepsParty start s := .single ⟨.perform lowered, fun _ => by simp, rfl⟩
  have hmember : ∃ c ∈ s.party.roster, c.id = .locklear ∧ (c.skills.record .health).max = 0 := by
    decide
  obtain ⟨c, hc, hid, hmax⟩ := hmember
  exact ⟨s, c, hrun, hc, hid, hmax, inRange_of_runs hrun c hc⟩

/--
In every run of a session with the party of the story there is room for all that the members of the
roster carry and for all that is on the key ring, which is as much room as there was when the story
began; and of an item that stacks nobody has more than one entry, nor has the key ring.
-/
theorem tidy_of_runs {settings : Settings}
    (h : Runs Move.KeepsParty (ofSettings settings .initial) s) :
    s.party.Carries fun v => v.items.length ≤ v.capacity ∧
      v.capacity = Inventory.usualCapacity ∧
      ∀ id : ItemId, id.isStackable = true → (v.items.filter (·.id = id)).length ≤ 1 := by
  let P : Inventory → Prop := fun v => v.Tidy ∧ v.capacity = Inventory.usualCapacity
  have hstart : (ofSettings settings .initial).party.Carries P := by
    obtain ⟨hkeys, hroster⟩ := Party.carries_initial (P := P) ⟨Inventory.tidy_empty _, rfl⟩
    exact ⟨hkeys, hroster⟩
  have hkept : s.party.Carries P := h.keeps_party (P := Party.Carries P)
    (fun h hp => h.carries (fun h hv => ⟨h.tidy hv.1, h.capacity.trans hv.2⟩) hp)
    (fitsLedger_ofSettings settings .initial) hstart
  have htidy : ∀ {v}, P v → v.items.length ≤ v.capacity ∧ v.capacity = Inventory.usualCapacity ∧
      ∀ id : ItemId, id.isStackable = true → (v.items.filter (·.id = id)).length ≤ 1 :=
    fun hv => ⟨hv.1.fits, hv.2, fun _ hid => hv.1.length_filter_le hid⟩
  exact ⟨htidy hkept.keys, fun c hc => htidy (hkept.roster c hc)⟩

/-- Rations that are handed out twice are one stack of Locklear's, and a day later the three on the
road have eaten of it. -/
theorem tidy_of_runs_provisions : ∃ s c, Runs Move.KeepsParty (ofSettings .usual .initial) s ∧
    c ∈ s.party.roster ∧ c.inventory.items = [.loose .rations 2, .loose .torch 1, .loose .torch 1] ∧
    c.inventory.items.length ≤ c.inventory.capacity ∧
    c.inventory.capacity = Inventory.usualCapacity ∧
    (c.inventory.items.filter (·.id = .rations)).length ≤ 1 := by
  let start : Session := ofSettings .usual .initial
  let provisions : List Action := [.giveItem .rations 0 3, .giveItem .torch 0 1,
    .giveItem .torch 0 1, .giveItem .rations 0 2]
  let given : Session := ((performAll provisions).run start).2
  let s : Session := ((passTime .oneDay .dialog).run given).2
  have hrun : Runs Move.KeepsParty start s :=
    .tail (.single ⟨.performAll provisions, fun _ => by simp, rfl⟩)
      ⟨.passTime .oneDay .dialog, fun _ => by simp, rfl⟩
  have hmember : ∃ c ∈ s.party.roster,
      c.inventory.items = [.loose .rations 2, .loose .torch 1, .loose .torch 1] := by
    decide +kernel
  obtain ⟨c, hc, hitems⟩ := hmember
  obtain ⟨hfits, hroom, hsingle⟩ := (tidy_of_runs hrun).roster c hc
  exact ⟨s, c, hrun, hc, hitems, hfits, hroom, hsingle .rations rfl⟩

end QuestLogic.Session
