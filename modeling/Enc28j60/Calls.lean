import Enc28j60.Banks

/-!
# Enc28j60.Calls

Sequences of driver calls from power-on, and when their register commands reach
the registers they name (`calls_routed`).
-/

namespace Enc28j60

open Res

/-! ## sequences of calls -/

/-- A call of one of the driver's functions. -/
inductive Call where
  | strtDr
  | sftRst
  | readEtherReg (u8Reg : Byte)
  | readPhyReg (addr : Byte)
  | getPhyRevNumber
  | getPhyPartNumber
  | getPhyIdentifier
  | getPhyInterrupt
  | getPhylinkHasBeenDown
  | getPhyjabberStatusBit
  | getPhyPolarityStatus
  | getPhyDuplexStatus
  | getPhyLinkStatus
  | getPhyCollisionStatus
  | getPhyIsRxStatus
  | getPhyIsTxStatus
  | etherTransmit (u8PtrData : Nat) (length : BitVec 16)
  | etherReceive
  | getEtherInterrupt
  | getwakeUpInterrupt
  | clear_interrupt (flags : Byte)
  | global_Int_Set
  | global_int_Clear
  | link_change_int_clear

/-- Forget a call's value. -/
def discard {α : Type} (p : Fw α) : Fw Unit := do
  let _ ← p
  pure ()

namespace Call

/-- The call as the driver executes it, with at most `fuel` polls in each wait loop. -/
def exec (fuel : Nat) : Call → Fw Unit
  | strtDr => Enc28j60.strtDr fuel
  | sftRst => Enc28j60.sftRst
  | readEtherReg r => discard (Enc28j60.readEtherReg r)
  | readPhyReg a => discard (Enc28j60.readPhyReg fuel a)
  | getPhyRevNumber => discard (Enc28j60.getPhyRevNumber fuel)
  | getPhyPartNumber => discard (Enc28j60.getPhyPartNumber fuel)
  | getPhyIdentifier => discard (Enc28j60.getPhyIdentifier fuel)
  | getPhyInterrupt => discard (Enc28j60.getPhyInterrupt fuel)
  | getPhylinkHasBeenDown => discard (Enc28j60.getPhylinkHasBeenDown fuel)
  | getPhyjabberStatusBit => discard (Enc28j60.getPhyjabberStatusBit fuel)
  | getPhyPolarityStatus => discard (Enc28j60.getPhyPolarityStatus fuel)
  | getPhyDuplexStatus => discard (Enc28j60.getPhyDuplexStatus fuel)
  | getPhyLinkStatus => discard (Enc28j60.getPhyLinkStatus fuel)
  | getPhyCollisionStatus => discard (Enc28j60.getPhyCollisionStatus fuel)
  | getPhyIsRxStatus => discard (Enc28j60.getPhyIsRxStatus fuel)
  | getPhyIsTxStatus => discard (Enc28j60.getPhyIsTxStatus fuel)
  | etherTransmit off len => discard (Enc28j60.etherTransmit off len)
  | etherReceive => discard Enc28j60.etherReceive
  | getEtherInterrupt => discard Enc28j60.getEtherInterrupt
  | getwakeUpInterrupt => discard Enc28j60.getwakeUpInterrupt
  | clear_interrupt flags => Enc28j60.clear_interrupt flags
  | global_Int_Set => Enc28j60.global_Int_Set
  | global_int_Clear => Enc28j60.global_int_Clear
  | link_change_int_clear => Enc28j60.link_change_int_clear

/-- The history after a call.  PHY accesses enter bank 2, the wake-up flags are
in bank 1, transmission, reception and the interrupt helpers stay in bank 0. -/
def after (t : Trail) : Call → Trail
  | strtDr => ⟨.bank_1, true, false⟩
  | readEtherReg r => t.access r
  | readPhyReg _ | getPhyRevNumber | getPhyPartNumber | getPhyIdentifier | getPhyInterrupt
  | getPhylinkHasBeenDown | getPhyjabberStatusBit | getPhyPolarityStatus | getPhyDuplexStatus
  | getPhyLinkStatus | getPhyCollisionStatus | getPhyIsRxStatus | getPhyIsTxStatus => t.phyRead
  | getEtherInterrupt => t.access (commonRegs.EIR t.last.toByte)
  | getwakeUpInterrupt => t.access bank1.EWOLIR
  | clear_interrupt flags => if flags.toNat ≤ 64 then t.leave else t
  | sftRst | etherTransmit _ _ | etherReceive | global_Int_Set | global_int_Clear
  | link_change_int_clear => t.leave

end Call

/-- A finite sequence of calls. -/
def calls (fuel : Nat) : List Call → Fw Unit
  | [] => pure ()
  | call :: rest => do
      call.exec fuel
      calls fuel rest

/-- The history of a sequence of calls from power-on. -/
def history (cs : List Call) : Trail := cs.foldl Call.after .start

namespace Keeps

variable {α : Type} {t t' : Trail}

theorem discard [Inhabited α] {p : Fw α} (h : Keeps t p t') : Keeps t (discard p) t' :=
  h.bind fun _ => pure ()

theorem phyStatusBit (fuel : Nat) (addr : Byte) (bit : Nat) :
    Keeps t (phyStatusBit fuel addr bit) t.phyRead :=
  (readPhyReg fuel addr).bind fun _ => pure _

/-- Every call does to the banks what the history says. -/
theorem exec (fuel : Nat) (call : Call) : Keeps t (call.exec fuel) (call.after t) := by
  cases call with
  | strtDr => exact strtDr fuel
  | sftRst => exact sftRst
  | readEtherReg r => exact (readEtherReg r).discard
  | readPhyReg a => exact (readPhyReg fuel a).discard
  | getPhyRevNumber => exact ((readPhyReg fuel _).bind fun _ => pure _).discard
  | getPhyPartNumber => exact ((readPhyReg fuel _).bind fun _ => pure _).discard
  | getPhyIdentifier =>
      refine congr (u := t.phyRead.phyRead) ?_ ?_
      · exact ((readPhyReg fuel _).bind fun _ => (readPhyReg fuel _).bind fun _ => pure _).discard
      · simp [Call.after, Trail.phyRead, Trail.stale]
  | getPhyInterrupt => exact (readPhyReg fuel _).discard
  | getPhylinkHasBeenDown => exact (phyStatusBit fuel _ _).discard
  | getPhyjabberStatusBit => exact (phyStatusBit fuel _ _).discard
  | getPhyPolarityStatus => exact (phyStatusBit fuel _ _).discard
  | getPhyDuplexStatus => exact (phyStatusBit fuel _ _).discard
  | getPhyLinkStatus => exact (phyStatusBit fuel _ _).discard
  | getPhyCollisionStatus => exact (phyStatusBit fuel _ _).discard
  | getPhyIsRxStatus => exact (phyStatusBit fuel _ _).discard
  | getPhyIsTxStatus => exact (phyStatusBit fuel _ _).discard
  | etherTransmit off len => exact (etherTransmit off len).discard
  | etherReceive => exact etherReceive.discard
  | getEtherInterrupt => exact getEtherInterrupt.discard
  | getwakeUpInterrupt => exact (readEtherReg _).discard
  | clear_interrupt flags => exact clear_interrupt flags
  | global_Int_Set => exact BitFieldSet_bank0 rfl (by decide)
  | global_int_Clear => exact BitFieldClear_bank0 rfl _ (by decide)
  | link_change_int_clear => exact BitFieldClear_bank0 rfl _ (by decide)

theorem calls (fuel : Nat) (cs : List Call) :
    Keeps t (calls fuel cs) (cs.foldl Call.after t) := by
  induction cs generalizing t with
  | nil => exact pure ()
  | cons call rest ih => exact (exec fuel call).bind fun _ => ih

end Keeps

/-- Cached and selected bank at power-on, before the first command. -/
def PowerOn (w : World) : Prop :=
  w.dev.bnBank = .bank_0 ∧ w.chip.bsel = 0 ∧ w.log = []

theorem at_start {w : World} (h : PowerOn w) : At .start w := by
  obtain ⟨hb, hs, hl⟩ := h
  refine ⟨by decide, hb, hs, ?_⟩
  simp [Routed, hl, Trail.start]

/-- The triple of a whole sequence from power-on. -/
theorem triple_calls (fuel : Nat) (cs : List Call) :
    Triple BankEnv (Goal ((history cs).routed = true)) PowerOn (calls fuel cs)
      fun _ => At (history cs) :=
  Triple.conseq ((Keeps.calls fuel cs).triple _ fun h => h) (fun _ hw => at_start hw)
    fun _ _ hw => hw

/-- **Bank routing.**  However the rest of the system interferes, every register
command of a sequence of calls reaches the register it names if the history
never re-enters a bank it left for bank 0; and if it does, a sequence that
completes has misrouted a command. -/
theorem calls_routed (fuel : Nat) (cs : List Call) {w w' : World} {p : Fw Unit}
    (hw : PowerOn w) (h : Steps BankEnv (calls fuel cs, w) (p, w')) :
    ((history cs).routed = true → Routed w') ∧
      (p = pure () → Routed w' → (history cs).routed = true) := by
  have hwp := (triple_calls fuel cs w hw).steps h
  refine ⟨hwp.guard, fun hp hr => ?_⟩
  subst hp
  exact (hwp w' .refl).2.2.routed.mp hr

/-- Calls that never re-enter a bank they left, from the chip's own power-on state. -/
theorem calls_routed_wakeUp :
    ∃ w', Steps BankEnv
        (calls 1 [.getwakeUpInterrupt, .readPhyReg phyReg.PHIR, .etherReceive], World.powerOn)
        (pure (), w') ∧ Routed w' := by
  have hrun : (Res.run (calls 1 [.getwakeUpInterrupt, .readPhyReg phyReg.PHIR, .etherReceive])
      World.powerOn).isSome = true := by decide +kernel
  obtain ⟨⟨_, w'⟩, hw'⟩ := Option.isSome_iff_exists.mp hrun
  have hsteps := steps_of_run BankEnv hw'
  exact ⟨w', hsteps, (calls_routed 1 _ ⟨rfl, rfl, rfl⟩ hsteps).1 (by decide)⟩

/-- `enc28j60_strtDr` at power-on: bank 2, then bank 0, then bank 2 again. -/
theorem not_routed_strtDr :
    ¬ ∀ (fuel : Nat) (cs : List Call) (w w' : World) (p : Fw Unit), PowerOn w →
      Steps BankEnv (calls fuel cs, w) (p, w') → Routed w' := by
  intro h
  have hrun : (Res.run (calls 1 [.strtDr]) World.powerOn).isSome = true := by decide +kernel
  obtain ⟨⟨_, w'⟩, hw'⟩ := Option.isSome_iff_exists.mp hrun
  have hsteps := steps_of_run BankEnv hw'
  have hwp := (triple_calls 1 [.strtDr] World.powerOn ⟨rfl, rfl, rfl⟩).steps hsteps
  have hr : Routed w' := h 1 [.strtDr] _ _ _ ⟨rfl, rfl, rfl⟩ hsteps
  exact absurd ((hwp w' .refl).2.2.routed.mp hr) (by decide)

end Enc28j60
