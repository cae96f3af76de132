import QuestLogic.Proofs.Session.Light

/-!
# A pass by lists

A pass over the ledger is told by lists alone (`Session.reduceLedger_by_lists`): the entries that
outlast the span are left with the rest of their time, the flags of the others are written in order,
bit by bit, and a light of the party goes out for each light of the ledger that burns out. Nothing
else of the session is touched, but for the spells in effect and the brightness of the light.
-/

namespace QuestLogic.Session

variable {s : Session}

/--
A pass over the ledger of a session whose image reaches to the end of the flags goes through. What
outlasts the span is left with the rest of its time, in order; the flags of what does not are
written in order, one bit each, and no other bit of the image changes. For each light of the ledger
that burns out, and for nothing else, a light of the party goes out, the first that is still worn by
the order of the members, and there is one way only for so many to do so. Neither the purse nor the
key ring changes, everyone fares as before, and besides the spells in effect and the brightness of
the light the rest of the session is what it was.
-/
theorem reduceLedger_by_lists {m : Image} (hsave : s.save = some m) (hm : Layout.size ≤ m.size)
    (span : Time) : ∃ m' q,
      (reduceLedger span).run s = (.ok (), { s with
        party := q
        save := some m'
        ledger.entries := (s.ledger.entries.filter (·.Outlasts span)).map (·.decay span)
        spells := (s.ledger.entries.map (·.decay span)).foldl refresh s.spells
        light := (brightest? (s.ledger.entries.map (·.decay span))).getD s.light }) ∧
      m'.size = m.size ∧
      (∀ l, m'.bit l = (flagsOf (s.ledger.entries.filter (¬·.Outlasts span))).foldl
        (fun b w => if l = w.1.location then w.2 else b) (m.bit l)) ∧
      (∀ r, Party.GoOut (s.ledger.entries.countP (·.BurnsOut span)) s.party r ↔ r = q) ∧
      s.party.Unharmed q ∧ q.marching = s.party.marching ∧
      ((∀ id ∈ s.party.active, ¬(s.party.roster.map (·.id)).Duplicate id) →
        s.party.marching = s.party.active.eraseDups.filterMap s.party.place?) := by
  have hs := not_isCutShort hsave hm
  obtain ⟨q, level, hout, hrun⟩ := run_reduceLedger_eq hs span
  have hlevel := light_reduceLedger hs span
  rw [hrun] at hlevel
  dsimp only at hlevel
  rw [hsave, Option.map_some, hlevel] at hrun
  exact ⟨_, q, hrun, Image.size_withFlags _ _, Image.bit_withFlags hm _,
    fun r => ⟨fun hr => hr.unique hout, fun hr => hr ▸ hout⟩, hout.unharmed,
    hout.unharmed.health.marching, Party.marching_eq⟩

/-- A new game in which Owyn wears two torches, one of them with a charge to spare, and Gorath a
lantern, while lights burn and two flags are due. -/
def torchlit : Session :=
  let owyn : Inventory := .ofItems [⟨.torch, 1, true⟩, ⟨.rations, 4, false⟩, ⟨.torch, 2, true⟩]
  let gorath : Inventory := .ofItems [⟨.lantern, 0, true⟩]
  { onBlank with
    party := (Party.initial.modifyMember .owyn fun c => { c with inventory := owyn }).modifyMember
      .gorath fun c => { c with inventory := gorath }
    ledger := ⟨[⟨.light, 0, 4, ⟨50⟩⟩, ⟨.setState, 0, 0x40, ⟨100⟩⟩, ⟨.light, 0, 5, ⟨0⟩⟩,
      ⟨.resetState, 0, 0x41, ⟨300⟩⟩, ⟨.light, 0, 6, ⟨100⟩⟩, ⟨.light, 0, 7, ⟨101⟩⟩], 20⟩ }

/-- Two of the lights burn out in the pass, so that both torches go out and the lantern stays lit.
Of the torches the one without a charge is gone. -/
theorem reduceLedger_by_lists_torchlit :
    torchlit.save = some (.zeroed Layout.size) ∧ Layout.size ≤ (Image.zeroed Layout.size).size ∧
      ∃ m' t, (reduceLedger ⟨100⟩).run torchlit = (.ok (), t) ∧ t.save = some m' ∧
        m'.bit (EventPtr.location 0x40) = true ∧ m'.bit (EventPtr.location 0x41) = false ∧
        t.ledger.entries = [⟨.resetState, 0, 0x41, ⟨200⟩⟩, ⟨.light, 0, 7, ⟨1⟩⟩] ∧
        t.party.activeMembers.map (·.inventory.items) =
          [[], [⟨.rations, 4, false⟩, ⟨.torch, 1, false⟩], [⟨.lantern, 0, true⟩]] := by
  have hm : Layout.size ≤ (Image.zeroed Layout.size).size := Image.full_zeroed
  have hflags : flagsOf (torchlit.ledger.entries.filter (¬·.Outlasts ⟨100⟩)) = [(0x40, true)] := by
    decide +kernel
  have hleft : (torchlit.ledger.entries.filter (·.Outlasts ⟨100⟩)).map (·.decay ⟨100⟩) =
      [⟨.resetState, 0, 0x41, ⟨200⟩⟩, ⟨.light, 0, 7, ⟨1⟩⟩] := by decide +kernel
  obtain ⟨m', q, hrun, -, hbit, -⟩ := reduceLedger_by_lists (s := torchlit) rfl hm ⟨100⟩
  rw [hflags] at hbit
  refine ⟨rfl, hm, m', _, hrun, rfl, ?_, ?_, hleft, ?_⟩
  · rw [hbit]
    rfl
  · rw [hbit, Image.bit_zeroed]
    decide
  · have hparty := congrArg (fun o => o.2.party.activeMembers.map (·.inventory.items)) hrun
    refine hparty.symm.trans ?_
    decide +kernel

end QuestLogic.Session
