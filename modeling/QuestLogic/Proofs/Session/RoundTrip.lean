import QuestLogic.Proofs.Session.Move

/-!
# What is saved is loaded

A session in play that has been saved is loaded again, into any session with as much room for timed
effects, with the chapter, zone, purse, clock and timed effects that it was saved with. The room is
what play has kept to (`Session.Reachable.fitsLedger`), and the fields of the image do not overlap
(`Session.pairwise_apart_fields`).
-/

namespace QuestLogic.Session

variable {s s' t : Session}

/--
A session in play, in a chapter of the story, that is saved leaves an image from which any session
with as much room in its ledger loads the same chapter, zone, purse, clock and timed effects.
-/
theorem saveState_load (hs : s.Reachable)
    (hchapter : 1 ≤ s.chapter.val.toNat ∧ s.chapter.val.toNat ≤ 9)
    (hsave : saveState.run s = (.ok (), s'))
    (hroom : t.settings.ledgerCapacity = s.settings.ledgerCapacity) :
    ∃ m t', s' = { s with save := some m } ∧ (load m).run t = (.ok (), t') ∧
      t'.chapter = s.chapter ∧ t'.zone = s.zone ∧ t'.party.gold = s.party.gold ∧
      t'.clock = s.clock ∧ t'.ledger.entries = s.ledger.entries := by
  obtain ⟨m, -, hfit, rfl⟩ := saveState_eq_ok hsave
  -- Loading refuses more effects than there is room for, and no session in play has that many.
  obtain ⟨hcapacity, hbounded⟩ := hs.fitsLedger
  have hlength : s.ledger.entries.length ≤
      min t.settings.ledgerCapacity Ledger.maxCapacity := by
    rw [hroom, ← hcapacity]
    exact hbounded
  have hfields := Image.contains_putAll hfit s.pairwise_apart_fields
  obtain ⟨u, hload, -, hsame⟩ := loaded_of_contains hfields hchapter hlength
  exact ⟨m.putAll s.fields, u, rfl, Step.run_update_ok hload, hsame⟩

/-- A session to which an image of its own fields is given. -/
theorem exists_loaded_fields (b : Session) (hb : b.FitsLedger)
    (hchapter : 1 ≤ b.chapter.val.toNat ∧ b.chapter.val.toNat ≤ 9) :
    ∃ m s, Layout.size ≤ m.size ∧ b.loaded m = .ok s ∧ s.save = some m ∧ s.chapter = b.chapter ∧
      s.ledger = b.ledger := by
  have hfull : Layout.size ≤ (Image.zeroed Layout.size).size :=
    Nat.le_of_eq (Image.size_zeroed _).symm
  have hfields := Image.contains_putAll (fits_fields hfull hb.length_le) b.pairwise_apart_fields
  have hroom : b.ledger.entries.length ≤ min b.settings.ledgerCapacity Ledger.maxCapacity := by
    rw [← hb.capacity]
    exact hb.bounded
  obtain ⟨s, hload, hsave, hc, -, -, -, hentries⟩ := loaded_of_contains hfields hchapter hroom
  refine ⟨_, s, by rwa [Image.size_putAll], hload, hsave, hc, ?_⟩
  -- The room for effects comes from the settings, which loading leaves alone.
  have hcapacity := ((Change.load hload).fitsLedger hb).capacity
  rw [(Change.load hload).settings, ← hb.capacity] at hcapacity
  rcases hs : s.ledger with ⟨entries, capacity⟩
  rcases hl : b.ledger with ⟨entries', capacity'⟩
  rw [hs, hl] at hentries hcapacity
  exact congr (congrArg Ledger.mk hentries) hcapacity

/-- A game with an image in which a spell has been cast is saved, and a new game loads it. -/
theorem saveState_load_after_spell :
    ∃ s s' m t', s.Reachable ∧ (1 ≤ s.chapter.val.toNat ∧ s.chapter.val.toNat ≤ 9) ∧
      s.ledger.entries = [⟨.spell, Effect.extend, 4, ⟨100⟩⟩] ∧ saveState.run s = (.ok (), s') ∧
      (default : Session).settings.ledgerCapacity = s.settings.ledgerCapacity ∧
      s'.save = some m ∧ (load m).run default = (.ok (), t') ∧
      t'.ledger.entries = [⟨.spell, Effect.extend, 4, ⟨100⟩⟩] := by
  have hbegun : (default : Session).Reachable := ⟨.usual, .initial, .refl⟩
  obtain ⟨m₀, b, hm₀, hload, hsave, hchapter, hledger⟩ :=
    exists_loaded_fields default hbegun.fitsLedger (by decide)
  have hb : b.Reachable := by
    have hplay := hbegun.play (.load m₀)
    rwa [Move.play, load, Step.run_update_ok hload] at hplay
  -- The game casts a spell that lasts.
  have hadd : b.ledger.addSpell? 4 ⟨100⟩ = some ⟨[⟨.spell, Effect.extend, 4, ⟨100⟩⟩], 20⟩ := by
    rw [hledger]
    rfl
  let s : Session := { b with
    ledger := ⟨[⟨.spell, Effect.extend, 4, ⟨100⟩⟩], 20⟩, spells := b.spells.set 4 true }
  have hs : s.Reachable := by
    have hcast : (castStatic .union ⟨100⟩).run b = (.ok (), s) :=
      Step.run_update_ok (by rw [StaticSpell.code, hadd])
    have hplay := hb.play (.castStatic .union ⟨100⟩)
    rwa [Move.play, hcast] at hplay
  -- It is saved into the image that it has.
  have hs' : saveState.run s = (.ok (), { s with save := some (m₀.putAll s.fields) }) := by
    have hsave' : s.save = some m₀ := hsave
    rw [run_saveState hsave', run_writeFields (fits_fields hm₀ hs.fitsLedger.length_le)]
  have hrange : 1 ≤ s.chapter.val.toNat ∧ s.chapter.val.toNat ≤ 9 := by
    change 1 ≤ b.chapter.val.toNat ∧ b.chapter.val.toNat ≤ 9
    rw [hchapter]
    decide
  have hroom : (default : Session).settings.ledgerCapacity = s.settings.ledgerCapacity :=
    congrArg Settings.ledgerCapacity (Change.load hload).settings.symm
  obtain ⟨m, t', hm, hload', -, -, -, -, hentries⟩ := saveState_load hs hrange hs' hroom
  exact ⟨s, _, m, t', hs, hrange, rfl, hs', hroom, congrArg Session.save hm, hload', hentries⟩

end QuestLogic.Session
