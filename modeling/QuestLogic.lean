import QuestLogic.Main
import QuestLogic.Proofs.Event.Mark
import QuestLogic.Proofs.Event.Flags
import QuestLogic.Proofs.Dialog.Choice
import QuestLogic.Session.Encounter
import QuestLogic.Proofs.Ledger.Record
import QuestLogic.Proofs.Party.Change
import QuestLogic.Proofs.Save.Change
import QuestLogic.Proofs.Save.Stash
import QuestLogic.Proofs.Ledger.Basic
import QuestLogic.Proofs.Session.Change
import QuestLogic.Proofs.Session.Passage
import QuestLogic.Proofs.Session.Branch
import QuestLogic.Proofs.Session.Action
import QuestLogic.Proofs.Session.Chapter
import QuestLogic.Proofs.Session.Save
import QuestLogic.Proofs.Session.Move
import QuestLogic.Proofs.Session.RoundTrip
import QuestLogic.Proofs.Ledger.Spell
import QuestLogic.Proofs.Spell
import QuestLogic.Proofs.Session.Mirror
import QuestLogic.Proofs.Session.Spells
import QuestLogic.Proofs.Ledger.Schedule
import QuestLogic.Proofs.Ledger.Insertion
import QuestLogic.Proofs.Session.Schedule
import QuestLogic.Proofs.Session.Load
import QuestLogic.Proofs.Party.Marching
import QuestLogic.Proofs.Party.Stock
import QuestLogic.Proofs.Party.Meal
import QuestLogic.Proofs.Session.Stock
import QuestLogic.Proofs.Session.Upkeep
import QuestLogic.Proofs.Session.Encounter
import QuestLogic.Proofs.Session.Quest
import QuestLogic.Proofs.Party.Company
import QuestLogic.Proofs.Session.Company
import QuestLogic.Proofs.Session.Opening
import QuestLogic.Proofs.Session.Begun
import QuestLogic.Proofs.Session.Purse
import QuestLogic.Proofs.Session.Recurrence
import QuestLogic.Proofs.Script.Library
import QuestLogic.Proofs.Session.Chain
import QuestLogic.Proofs.Session.Integrity
import QuestLogic.Proofs.Save.Regions
import QuestLogic.Proofs.Session.Regions
import QuestLogic.Proofs.Party.Vitals
import QuestLogic.Proofs.Session.Hours
import QuestLogic.Proofs.Party.Health
import QuestLogic.Proofs.Session.Rest
import QuestLogic.Proofs.Session.Expiry
import QuestLogic.Proofs.Session.Roster
import QuestLogic.Proofs.Session.Refusal
import QuestLogic.Proofs.Random
import QuestLogic.Proofs.Session.Gain
import QuestLogic.Proofs.Session.Acceptance
import QuestLogic.Proofs.Event.Keys
import QuestLogic.Proofs.Session.Role
import QuestLogic.Proofs.Party.Range
import QuestLogic.Proofs.Party.Tidy
import QuestLogic.Proofs.Session.Range
import QuestLogic.Proofs.Session.Light
import QuestLogic.Proofs.Script.Order
import QuestLogic.Proofs.Session.Recursion
import QuestLogic.Proofs.Session.Queue
import QuestLogic.Proofs.Party.Lights
import QuestLogic.Proofs.Session.Pass
import QuestLogic.Proofs.Session.Elapse
import QuestLogic.Proofs.Party.Removal
import QuestLogic.Proofs.Party.Taking
import QuestLogic.Proofs.Party.Receipt
import QuestLogic.Proofs.Event.Write
import QuestLogic.Proofs.Session.Gate
import QuestLogic.Proofs.Session.Temporary
import QuestLogic.Proofs.Party.Rations
import QuestLogic.Proofs.Generator
import QuestLogic.Proofs.Text.Slots
