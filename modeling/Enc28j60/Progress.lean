import Mathlib.Data.List.Forall2
import Mathlib.Data.List.Infix
import Mathlib.Data.List.Sublists
import Enc28j60.RxRing

/-!
# Enc28j60.Progress

How far the main loop has got with the frames in the receive ring.

* **after a service** — `Serviced` is what has to hold whenever control is right
  behind `enc28j60_clear_interrupt(&dev, PKTIF)`.
* **progress** — `Progress` counts the accepted frames at four points of a
  service: the space of so many was given back (ERXRDPT), so many were
  acknowledged (EPKTCNT), served, handed to lwIP.  `RxAt p` relates the counts
  to the chip, which may append frames at any time.
* **between services** — `Settled p`: `rxPkt.ptrAddr` is where the oldest frame
  starts.  Everything but case 6 of the pass keeps it; sending does because the
  frames fit the transmit buffer, at whose start EWRPT is set first.
-/

namespace Enc28j60

open Res

/-! ## what holds after a service -/

/-- lwIP got the frame's bytes, or as many as its buffer holds. -/
def Carries (bytes : List Byte) (r : Nat × RxFrame) : Prop := bytes <+: r.2.data

/-- The frame is in `rxPkt`. -/
def Loaded (f : RxFrame) (d : Dev) : Prop :=
  (d.u16 rxPktLen).toNat = f.data.length ∧ Mem.load d.pkt rxData f.data.length = f.data

/-- PKTIF was just acknowledged, after a reception that returned `err`.  The
frames from number `w.served` on are unread. -/
structure Serviced (err : Bool) (w : World) : Prop where
  /-- EPKTCNT is the number of unread frames. -/
  epktcnt : w.chip.accepted.length = w.served + w.chip.epktcnt.toNat
  /-- `ptrAddr` is the start of the oldest of them, or ERXWRPT. -/
  ptrAddr : (w.dev.u16 ptrAddr).toNat =
    ((w.chip.accepted[w.served]?).map Prod.fst).getD w.chip.erxwrpt.toNat
  /-- ERXRDPT is the address before it in the ring. -/
  erxrdpt : w.chip.ptr Chip.ERXRDPT =
    if w.dev.u16 Enc28j60.ptrAddr = 0x0000 then 0x17FF else w.dev.u16 Enc28j60.ptrAddr - 1
  /-- The frame just served was read in full if it is not refused for its length. -/
  frame : ∃ n r, w.served = n + 1 ∧ w.chip.accepted[n]? = some r ∧
    (err = true ↔ r.2.data.length ≤ 1500) ∧ (err = true → Loaded r.2 w.dev) ∧
    List.SublistForall₂ Carries w.delivered (w.chip.accepted.take n)

/-- The guarantee: so it is after every service. -/
def RxGuard (w : World) : Prop := ∀ err, w.at_ = .serviced err → Serviced err w

/-! ## the environment -/

/-- SPI reads succeed, no accepted frame's length falls between what `rxPkt.data`
holds and what the length check refuses, and the frames lwIP offers fit the
transmit buffer behind their control byte. -/
structure Fair (w : World) : Prop where
  halOk : w.halOk = true
  length : ∀ r ∈ w.chip.accepted, r.2.data.length ≤ 1500 ∨ 1518 ≤ r.2.data.length
  offered : ∀ p ∈ w.offered, p.tot_len.toNat < 0x800

def RingEnv (w w' : World) : Prop := Env w w' ∧ Fair w'

theorem bankEnv_of_ringEnv (w w' : World) (h : RingEnv w w') : BankEnv w w' :=
  bankEnv_of_env h.1

/-! ## progress -/

structure Progress where
  /-- Where the oldest frame whose space was not given back starts. -/
  start : Nat
  released : Nat
  acked : Nat
  served : Nat
  passed : Nat

structure RxAt (p : Progress) (w : World) : Prop where
  ring : w.chip.RxRing p.start p.released
  count : w.chip.accepted.length = p.acked + w.chip.epktcnt.toNat
  served : w.served = p.served
  passed_le : p.passed ≤ w.chip.accepted.length
  order : List.SublistForall₂ Carries w.delivered (w.chip.accepted.take p.passed)
  fair : Fair w

variable {p : Progress} {f : RxFrame}

/-- A step that neither moves the ring nor serves a frame. -/
theorem RxAt.same {w w' : World} (h : RxAt p w) (hchip : w.chip.RxSame w'.chip)
    (hserved : w'.served = w.served) (hdel : w'.delivered = w.delivered) (hfair : Fair w') :
    RxAt p w' where
  ring := hchip.ring h.ring
  count := by
    rw [hchip.accepted, hchip.epktcnt]
    exact h.count
  served := hserved.trans h.served
  passed_le := by
    rw [hchip.accepted]
    exact h.passed_le
  order := by
    rw [hchip.accepted, hdel]
    exact h.order
  fair := hfair

/-- The chip appends a frame. -/
theorem RxAt.receive {w w' : World} (h : RxAt p w) {f : RxFrame} (hf : w.chip.accepts f)
    (hchip : w'.chip = w.chip.receive f) (hserved : w'.served = w.served)
    (hdel : w'.delivered = w.delivered) (hfair : Fair w') : RxAt p w' where
  ring := by
    rw [hchip]
    exact h.ring.receive hf
  count := by
    have hsucc : ∀ v : Byte, v ≠ 255 → (v + 1).toNat = v.toNat + 1 := by decide
    rw [hchip]
    show (w.chip.accepted ++ [_]).length = p.acked + (w.chip.epktcnt + 1).toNat
    rw [List.length_append, h.count, hsucc _ hf.2.1, Nat.add_assoc]
    rfl
  served := hserved.trans h.served
  passed_le := by
    rw [hchip]
    show p.passed ≤ (w.chip.accepted ++ [_]).length
    rw [List.length_append]
    exact Nat.le_add_right_of_le h.passed_le
  order := by
    rw [hchip, hdel]
    show List.SublistForall₂ Carries w.delivered ((w.chip.accepted ++ [_]).take p.passed)
    rw [List.take_append_of_le_length h.passed_le]
    exact h.order
  fair := hfair

theorem rxAt_of_env {w w' : World} (h : RingEnv w w') (hw : RxAt p w) : RxAt p w' := by
  obtain ⟨henv, hfair⟩ := h
  cases henv with
  | chip hc =>
      rcases Chip.rx_of_event hc with ⟨f, hf, hc'⟩ | hsame
      · exact hw.receive hf hc' rfl rfl hfair
      · exact hw.same hsame rfl rfl hfair
  | handler he hc => exact hw.same (.refl _) rfl rfl hfair
  | lwip offered pbufs => exact hw.same (.refl _) rfl rfl hfair
  | hal b => exact hw.same (.refl _) rfl rfl hfair

/-- A step of the firmware outside the ring. -/
theorem RxAt.keep {w w' : World} (h : RxAt p w) (hchip : w.chip.RxSame w'.chip)
    (hserved : w'.served = w.served) (hdel : w'.delivered = w.delivered)
    (hal : w'.halOk = w.halOk) (hoff : w'.offered = w.offered) : RxAt p w' := by
  refine h.same hchip hserved hdel ⟨hal.trans h.fair.halOk, ?_, ?_⟩
  · rw [hchip.accepted]
    exact h.fair.length
  · rw [hoff]
    exact h.fair.offered

/-- Control is not right behind a service. -/
def Away (w : World) : Prop := ∀ err, w.at_ ≠ .serviced err

theorem away_of_env {w w' : World} (h : RingEnv w w') (hw : Away w) : Away w' := by
  obtain ⟨henv, _⟩ := h
  cases henv <;> exact hw

/-- The buffer bounds in the driver's record. -/
structure DevOk (d : Dev) : Prop where
  rxBufStartAddr : d.rxBufStartAddr = 0x0000
  rxBufEndAddr : d.rxBufEndAddr = 0x17FF
  txBufStartAddr : d.txBufStartAddr = 0x1800

/-! ## between services -/

/-- `rxPkt.ptrAddr` is where the oldest frame starts. -/
structure Settled (p : Progress) (w : World) : Prop where
  rx : RxAt p w
  away : Away w
  dev : DevOk w.dev
  ptr : (w.dev.u16 ptrAddr).toNat = p.start

theorem settled_rx_stable : Stable RingEnv RxGuard (Settled p) where
  env w w' h hw := by
    obtain ⟨hdev, _⟩ := dev_of_env h.1
    refine ⟨rxAt_of_env h hw.rx, away_of_env h hw.away, ?_, ?_⟩
    · rw [hdev]
      exact hw.dev
    · rw [hdev]
      exact hw.ptr
  guard _ hw err hat := absurd hat (hw.away err)

/-- The register addresses the ring does not depend on; buffer memory is apart. -/
def Outside (a : BitVec 5) : Prop := Chip.NotRing a ∧ a ≠ 0x1A

instance : DecidablePred Outside := fun _ => inferInstanceAs (Decidable ((_ ∧ _) ∧ _))

theorem rxSame_of_chipStep {A : BitVec 5 → Prop} (hA : ∀ a, A a → Outside a) {c c' : Chip}
    (h : ChipStep A c c') : c.RxSame c' := by
  cases h with
  | bank v hv => exact .of_eq rfl rfl rfl rfl rfl rfl
  | write a v ha => exact Chip.rxSame_writeReg v (hA a ha).1
  | poll a => exact (Chip.rxSame_of_blind (.poll a)).1
  | read n ha => exact absurd rfl (hA _ ha).2
  | fill vs ha => exact absurd rfl (hA _ ha).2

/-- Actions outside the ring, which store nothing in `rxPkt`. -/
theorem Settled.act {A : BitVec 5 → Prop} {S : Nat → Prop} (hA : ∀ a, A a → Outside a)
    (hS : ∀ off, S off → txPktLen ≤ off) {w w' : World} (h : Act A S w w') (hw : Settled p w) :
    Settled p w' := by
  cases h with
  | idle => exact hw
  | sel s => exact ⟨hw.rx.keep (.refl _) rfl rfl rfl rfl, hw.away, hw.dev, hw.ptr⟩
  | cache b =>
      exact ⟨hw.rx.keep (.refl _) rfl rfl rfl rfl, hw.away,
        ⟨hw.dev.rxBufStartAddr, hw.dev.rxBufEndAddr, hw.dev.txBufStartAddr⟩, hw.ptr⟩
  | store off bs hs =>
      refine ⟨hw.rx.keep (.refl _) rfl rfl rfl rfl, hw.away,
        ⟨hw.dev.rxBufStartAddr, hw.dev.rxBufEndAddr, hw.dev.txBufStartAddr⟩, ?_⟩
      rw [← hw.ptr]
      exact congrArg BitVec.toNat (Dev.u16_store_of_disjoint (.inl (hS off hs)))
  | spi hc =>
      exact ⟨hw.rx.keep (rxSame_of_chipStep hA hc) rfl rfl rfl rfl, hw.away, hw.dev, hw.ptr⟩
  | fetch off hc hs =>
      refine ⟨hw.rx.keep (rxSame_of_chipStep hA hc) rfl rfl rfl rfl, hw.away,
        ⟨hw.dev.rxBufStartAddr, hw.dev.rxBufEndAddr, hw.dev.txBufStartAddr⟩, ?_⟩
      rw [← hw.ptr]
      exact congrArg BitVec.toNat (Dev.u16_store_of_disjoint (.inl (hS off hs)))

theorem settled_blind : Blind (Settled p) :=
  fun _ _ h hw => hw.act (fun _ ha => ha.elim) (fun _ hs => hs.elim) h

/-- The assertion of the main loop: the ring and the banks. -/
def InLoop (P : World → Prop) (w : World) : Prop := P w ∧ Cached (fun _ => True) w

theorem InLoop.stable {P : World → Prop} (hP : Stable RingEnv RxGuard P) :
    Stable RingEnv RxGuard (InLoop P) where
  env w w' h hw := ⟨hP.env w w' h hw.1, cached_stable.env w w' (bankEnv_of_ringEnv w w' h) hw.2⟩
  guard w hw := hP.guard w hw.1

/-- A function that stays outside the ring. -/
theorem triple_outside {α : Type} {A : BitVec 5 → Prop} {S : Nat → Prop} {q : Fw α}
    (hA : ∀ a, A a → Outside a) (hS : ∀ off, S off → txPktLen ≤ off) (h : All (Act A S) q)
    (hk : KeepsBank (fun _ => True) q) :
    Triple RingEnv RxGuard (InLoop (Settled p)) q fun _ => InLoop (Settled p) :=
  hk.and bankEnv_of_ringEnv
    (Triple.frame settled_rx_stable h fun _ _ hact hw => hw.act hA hS hact)

/-- It stores nothing either. -/
theorem triple_quiet {α : Type} {q : Fw α} (h : All (Act Outside fun _ => False) q)
    (hk : KeepsBank (fun _ => True) q) :
    Triple RingEnv RxGuard (InLoop (Settled p)) q fun _ => InLoop (Settled p) :=
  triple_outside (fun _ ha => ha) (fun _ hs => hs.elim) h hk

/-! ## pointer registers -/

/-- An assertion that neither the environment nor bank switching nor a
transaction outside the ring concerns. -/
structure Inert (P : World → Prop) : Prop where
  stable : Stable RingEnv RxGuard P
  blind : Blind P
  transact : ∀ (w : World) (reg : Option Byte) (cmd : Byte) (out : List Byte) (c : Chip),
    w.chip.RxSame c → P w → P (w.transact reg cmd out [] c)

theorem settled_inert : Inert (Settled p) where
  stable := settled_rx_stable
  blind := settled_blind
  transact _ _ _ _ _ hc hw := ⟨hw.rx.keep hc rfl rfl rfl rfl, hw.away, hw.dev, hw.ptr⟩

/-- A register of bank 0 outside the ring holds a value, beside `P`. -/
def Holds (P : World → Prop) (a : BitVec 5) (v : Byte) (w : World) : Prop :=
  w.chip.regs 0 a = v ∧ P w

theorem ult_of_ult {a : BitVec 5} (h : a.ult 0x08 = true) : a.ult 0x1B = true := by
  revert a
  decide

/-- The pointers of the buffer memory commands are plain registers. -/
theorem Chip.writeBanked_plain (c : Chip) {a : BitVec 5} (v : Byte) (h : a.ult 0x08 = true) :
    c.writeBanked 0 a v = c.setReg 0 a v := by
  have hne : a ≠ 0x0C ∧ a ≠ 0x0D ∧ ¬(a = 0x08 ∨ a = 0x09) ∧ ¬(a = 0x0E ∨ a = 0x0F) := by
    revert a
    decide
  have h0 : ∀ (b : BitVec 2) (q : Prop), b ≠ 0 → ¬(0 = b ∧ q) := fun _ _ hb hq => hb hq.1.symm
  unfold writeBanked
  rw [if_neg (fun h => hne.1 h.2), if_neg (fun h => hne.2.1 h.2), if_neg (fun h => hne.2.2.1 h.2),
    if_neg (fun h => hne.2.2.2 h.2), if_neg (h0 1 _ (by decide)), if_neg (h0 2 _ (by decide)),
    if_neg (h0 3 _ (by decide)), if_neg (h0 2 _ (by decide)), if_neg (h0 2 _ (by decide))]

theorem Chip.rxSame_plain {c : Chip} {a : BitVec 5} (v : Byte) (h : a.ult 0x08 = true) :
    c.RxSame (c.setReg 0 a v) := by
  refine Chip.rxSame_setReg v fun _ => ?_
  revert a
  decide

section Pointer

variable {R : World → World → Prop} {G P : World → Prop} (hR : ∀ w w', R w w' → Env w w')
  (hP : Stable R G P) (hblind : Blind P)
include hR hP

theorem stable_holds (a : BitVec 5) (v : Byte) : Stable R G (Holds P a v) where
  env w w' h hw := by
    refine ⟨?_, hP.env w w' h hw.2⟩
    rw [regs_of_env (hR w w' h)]
    exact hw.1
  guard w hw := hP.guard w hw.2

theorem stable_ptr (a : BitVec 5) (v : BitVec 16) :
    Stable R G fun w => w.chip.ptr a = v ∧ P w where
  env w w' h hw := by
    refine ⟨?_, hP.env w w' h hw.2⟩
    unfold Chip.ptr
    rw [regs_of_env (hR w w' h)]
    exact hw.1
  guard w hw := hP.guard w hw.2

omit hR hP in
include hblind in
theorem blind_holds (a : BitVec 5) (v : Byte) : Blind (Holds P a v) := fun w w' h hw => by
  refine ⟨?_, hblind w w' h hw.2⟩
  rw [regs_of_blind h]
  exact hw.1

include hblind in
/-- After both halves are written, the pointer is set. -/
theorem triple_writePtr
    (htransact : ∀ (w : World) (reg : Option Byte) (cmd : Byte) (out : List Byte) (c : Chip),
      w.chip.RxSame c → P w → P (w.transact reg cmd out [] c))
    {rl rh : Byte} (hl : convertRegValToBank rl = .bank_0)
    (hh : convertRegValToBank rh = .bank_0) (hlt : (regAddr rh).ult 0x08 = true)
    (hnext : regAddr rh = regAddr rl + 1 ∧ (regAddr rl).ult 0x08 = true) (v : BitVec 16) :
    Triple R G (fun w => P w ∧ Cached (fun _ => True) w) (writeReg16 rl rh v)
      fun _ w => (w.chip.ptr (regAddr rl) = v ∧ P w) ∧ Cached (fun _ => True) w := by
  have hbank : ∀ w w', R w w' → BankEnv w w' := fun w w' h => bankEnv_of_env (hR w w' h)
  have hlow := stable_holds hR hP (regAddr rl) (lo v)
  have hne : regAddr rl ≠ regAddr rh := by
    rw [hnext.1]
    generalize regAddr rl = a
    revert a
    decide
  unfold writeReg16
  refine Triple.bind (M := fun _ w => Holds P (regAddr rl) (lo v) w ∧ Cached (fun _ => True) w)
    ?_ fun _ => ?_
  · refine triple_writeReg_bank0 hbank hP hblind hlow ⟨hl, ult_of_ult hnext.2⟩ fun w hw => ?_
    rw [Chip.writeBanked_plain _ _ hnext.2]
    refine ⟨?_, htransact w _ _ _ _ (Chip.rxSame_plain _ hnext.2) hw⟩
    exact if_pos ⟨rfl, rfl⟩
  · refine triple_writeReg_bank0 hbank hlow (blind_holds hblind _ _)
      (stable_ptr hR hP (regAddr rl) v) ⟨hh, ult_of_ult hlt⟩ fun w hw => ?_
    rw [Chip.writeBanked_plain _ _ hlt]
    refine ⟨?_, htransact w _ _ _ _ (Chip.rxSame_plain _ hlt) hw.2⟩
    have hhigh : (w.chip.setReg 0 (regAddr rh) (hi v)).regs 0 (regAddr rh) = hi v :=
      if_pos ⟨rfl, rfl⟩
    have hkeep : (w.chip.setReg 0 (regAddr rh) (hi v)).regs 0 (regAddr rl) = lo v :=
      (if_neg fun h => hne h.2).trans hw.1
    show word ((w.chip.setReg 0 (regAddr rh) (hi v)).regs 0 (regAddr rl + 1))
      ((w.chip.setReg 0 (regAddr rh) (hi v)).regs 0 (regAddr rl)) = v
    rw [← hnext.1, hhigh, hkeep, word_hi_lo]

end Pointer

theorem env_of_ringEnv (w w' : World) (h : RingEnv w w') : Env w w' := h.1

/-! ## sending -/

/-- EWRPT points to the start of the transmit buffer. -/
def Filling (p : Progress) (w : World) : Prop := w.chip.ptr Chip.EWRPT = 0x1800 ∧ Settled p w

theorem filling_stable : Stable RingEnv RxGuard (Filling p) :=
  stable_ptr env_of_ringEnv settled_rx_stable Chip.EWRPT 0x1800

/-- Writing ETXST leaves EWRPT alone. -/
theorem ewrpt_of_act {S : Nat → Prop} {w w' : World} (h : Act (· ∈ [0x04, 0x05]) S w w')
    (hS : ∀ off, S off → txPktLen ≤ off) (hw : Filling p w) : Filling p w' := by
  have hwrite : ∀ (c : Chip) (a : BitVec 5) (v : Byte), a ∈ [(0x04 : BitVec 5), 0x05] →
      (c.writeReg a v).ptr Chip.EWRPT = c.ptr Chip.EWRPT := by
    intro c a v ha
    simp only [List.mem_cons, List.not_mem_nil, or_false] at ha
    rcases ha with rfl | rfl <;>
      simp [Chip.writeReg, Chip.writeBanked, Chip.ptr, Chip.setReg]
  have hstep : ∀ c c' : Chip, ChipStep (· ∈ [(0x04 : BitVec 5), 0x05]) c c' →
      c'.ptr Chip.EWRPT = c.ptr Chip.EWRPT := by
    intro c c' hc
    cases hc with
    | bank v hv => rfl
    | write a v ha => exact hwrite c a v ha
    | poll a =>
        unfold Chip.ptr
        rw [(Chip.rxSame_of_blind (.poll a)).2.1]
    | read n ha => exact absurd ha (by decide)
    | fill vs ha => exact absurd ha (by decide)
  refine ⟨?_, hw.2.act (by decide) hS h⟩
  rw [← hw.1]
  cases h with
  | idle => rfl
  | sel s => rfl
  | cache b => rfl
  | store off bs hs => rfl
  | spi hc => exact hstep _ _ hc
  | fetch off hc hs => exact hstep _ _ hc

/-- The buffer write of a frame: it goes to the transmit buffer. -/
theorem triple_fill (vs : List Byte) (hvs : vs.length ≤ 0x800) :
    Triple RingEnv RxGuard (InLoop (Filling p)) (spiSend none opcode.u8WriteBufferMemory vs)
      fun _ => InLoop (Settled p) := by
  refine KeepsBank.and bankEnv_of_ringEnv (.of_same fun _ => Keeps.spiWriteBuffer vs) ?_
  refine Triple.modify filling_stable (fun _ => settled_rx_stable) fun w hw => ?_
  refine settled_inert.transact w _ _ _ _ ?_ hw.2
  rw [Chip.command_writeBuffer]
  refine Chip.rxSame_writeBuffer vs fun _ => ?_
  rw [hw.1]
  show 0x1800 ≤ 0x1800 ∧ 0x1800 + vs.length ≤ 0x2000
  omega

/-- Reading the record of the driver. -/
theorem triple_getDev_inLoop {P : World → Prop} (hP : Stable RingEnv RxGuard P) {φ : Dev → Prop}
    (h : ∀ w, P w → φ w.dev) :
    Triple RingEnv RxGuard (InLoop P) getDev fun d w => φ d ∧ InLoop P w :=
  Triple.gets (InLoop.stable hP) (fun _ => (InLoop.stable hP).pure_and) fun w hw => ⟨h w hw.1, hw⟩

theorem triple_loadFrame {off : Nat} {length : BitVec 16} (hlen : length.toNat < 0x800) :
    Triple RingEnv RxGuard (InLoop (Settled p)) (loadFrame off length)
      fun _ => InLoop (Settled p) := by
  have hfill : ∀ {α : Type} {q : Fw α}, All (Act (· ∈ [0x04, 0x05]) (txPktLen ≤ ·)) q →
      KeepsBank (fun _ => True) q →
      Triple RingEnv RxGuard (InLoop (Filling p)) q fun _ => InLoop (Filling p) := fun h hk =>
    hk.and bankEnv_of_ringEnv
      (Triple.frame filling_stable h fun _ _ hact hw => ewrpt_of_act hact (fun _ hs => hs) hw)
  have hbank0 : ∀ {rl rh : Byte} {v : BitVec 16},
      convertRegValToBank rl = .bank_0 ∧ convertRegValToBank rh = .bank_0 →
      regAddr rl ≠ 0x1F ∧ regAddr rh ≠ 0x1F → KeepsBank (fun _ => True) (writeReg16 rl rh v) :=
    fun h h' => .of_leave fun _ => Keeps.writeReg16_bank0 _ h h'
  unfold loadFrame
  refine Triple.bind (triple_getDev_inLoop settled_rx_stable fun w hw => hw.dev) fun d => ?_
  refine Triple.of_pure fun hd => ?_
  rw [hd.txBufStartAddr]
  refine Triple.bind (M := fun _ => InLoop (Filling p))
    (triple_writePtr env_of_ringEnv settled_rx_stable settled_blind settled_inert.transact
      (by decide) (by decide) (by decide) (by decide) _) fun _ => ?_
  refine Triple.bind (hfill (all_writeReg16 (by decide) (by decide) _)
    (hbank0 (by decide) (by decide))) fun _ => ?_
  refine Triple.bind (hfill (all_setU16 (Nat.le_refl _) _) (.of_same fun _ =>
    Keeps.modifyDev_setU16 _ _)) fun _ => ?_
  refine Triple.bind (triple_getDev_inLoop (φ := fun _ => True) filling_stable fun _ _ => trivial)
    fun d' => Triple.of_pure fun _ => ?_
  refine Triple.bind (triple_fill _ ?_) fun _ => ?_
  · rw [List.length_cons, Mem.length_load]
    omega
  · exact triple_quiet (all_writeReg16 (by decide) (by decide) _) (hbank0 (by decide) (by decide))

/-- Control moves on, but not to the end of a service. -/
theorem triple_gotoRx {l : Label} (h : ∀ err, l ≠ .serviced err) :
    Triple RingEnv RxGuard (InLoop (Settled p)) (goto l) fun _ => InLoop (Settled p) :=
  (KeepsBank.goto l).and bankEnv_of_ringEnv
    (Triple.modify settled_rx_stable (fun _ => settled_rx_stable) fun _ hw =>
      ⟨hw.rx.keep (.refl _) rfl rfl rfl rfl, h, hw.dev, hw.ptr⟩)

theorem triple_setTxBusyRx (b : Bool) :
    Triple RingEnv RxGuard (InLoop (Settled p)) (setTxBusy b) fun _ => InLoop (Settled p) :=
  (KeepsBank.setTxBusy b).and bankEnv_of_ringEnv
    (Triple.modify settled_rx_stable (fun _ => settled_rx_stable) fun _ hw =>
      ⟨hw.rx.keep (.refl _) rfl rfl rfl rfl, hw.away, hw.dev, hw.ptr⟩)

theorem triple_etherTransmitRx {off : Nat} {length : BitVec 16} (hlen : length.toNat < 0x800) :
    Triple RingEnv RxGuard (InLoop (Settled p)) (etherTransmit off length)
      fun _ => InLoop (Settled p) := by
  have hset : ∀ {r v : Byte}, convertRegValToBank r = .bank_0 → Outside (regAddr r) →
      (regAddr r = 0x1F → v.setWidth 2 = (0 : BitVec 2)) →
      Triple RingEnv RxGuard (InLoop (Settled p)) (BitFieldSet r v) fun _ => InLoop (Settled p) :=
    fun hr ha hv => triple_quiet (all_BitFieldSet ha _)
      (.of_leave fun _ => Keeps.BitFieldSet_bank0 hr hv)
  unfold etherTransmit
  refine Triple.bind (triple_loadFrame hlen) fun _ => ?_
  refine Triple.bind (triple_quiet (all_BitFieldClear (by decide) _)
    (.of_leave fun _ => Keeps.BitFieldClear_bank0 rfl _ (by decide))) fun _ => ?_
  refine Triple.bind (hset rfl (by decide) (by decide)) fun _ => ?_
  refine Triple.bind (hset rfl (by decide) (by decide)) fun _ => ?_
  refine Triple.bind (hset rfl (by decide) (by decide)) fun _ => ?_
  exact Triple.pure (Q := fun _ => InLoop (Settled p)) (InLoop.stable settled_rx_stable)

theorem triple_translateRx {b : Pbuf} (hb : b.tot_len.toNat < 0x800) :
    Triple RingEnv RxGuard (InLoop (Settled p)) (translate b) fun _ => InLoop (Settled p) := by
  have hdone : ∀ err : Err, Triple RingEnv RxGuard (InLoop (Settled p)) (pure err)
      fun _ => InLoop (Settled p) := fun _ =>
    Triple.pure (Q := fun _ => InLoop (Settled p)) (InLoop.stable settled_rx_stable)
  have hcopy : Triple RingEnv RxGuard (InLoop (Settled p)) (copySegs b.segs 0)
      fun _ => InLoop (Settled p) :=
    triple_outside (A := fun _ => False) (S := (txPktLen ≤ ·)) (fun _ ha => ha.elim) (fun _ hs => hs)
      (all_copySegs_store b.segs 0) (.copySegs _ _)
  unfold translate translateBody
  refine Triple.bind (triple_gotoRx nofun) fun _ => ?_
  refine Triple.bind (M := fun _ => InLoop (Settled p)) ?_ fun err => ?_
  · refine Triple.bind (M := fun _ => InLoop (Settled p)) ?_ fun busy => ?_
    · exact Triple.gets (InLoop.stable settled_rx_stable)
        (fun _ => InLoop.stable settled_rx_stable) fun _ hw => hw
    split
    · refine Triple.bind hcopy fun offset => ?_
      split
      · exact hdone _
      · refine Triple.bind (triple_etherTransmitRx hb) fun _ => ?_
        exact Triple.bind (triple_setTxBusyRx true) fun _ => hdone _
    · exact hdone _
  · exact Triple.bind (triple_gotoRx nofun) fun _ => hdone err

/-- lwIP sends: the ring does not change. -/
theorem triple_linkOutputRx :
    Triple RingEnv RxGuard (InLoop (Settled p)) linkOutput fun _ => InLoop (Settled p) := by
  have hstable := InLoop.stable (settled_rx_stable (p := p))
  unfold linkOutput
  refine Triple.bind (M := fun (frames : List Pbuf) w => (∀ b ∈ frames, b.tot_len.toNat < 0x800) ∧
    InLoop (Settled p) w) ?_ fun frames => Triple.of_pure fun hfit => ?_
  · exact Triple.gets hstable (fun _ => hstable.pure_and) fun w hw => ⟨hw.1.rx.fair.offered, hw⟩
  induction frames with
  | nil => exact Triple.pure (Q := fun _ => InLoop (Settled p)) hstable
  | cons b next ih =>
      unfold sendAll
      refine Triple.bind (triple_translateRx (hfit b List.mem_cons_self)) fun _ => ?_
      exact ih fun b' hb' => hfit b' (List.mem_cons_of_mem b hb')

/-! ## the other flags -/

/-- Serving a flag other than PKTIF stays outside the ring. -/
theorem triple_serviceFlagRx (fuel : Nat) (u8Value : Byte) {cnt : Nat} (h : cnt ≠ 6) :
    Triple RingEnv RxGuard (InLoop (Settled p)) (serviceFlag fuel u8Value cnt)
      fun _ => InLoop (Settled p) := by
  have hdone : Triple RingEnv RxGuard (InLoop (Settled p)) (pure ())
      fun _ => InLoop (Settled p) :=
    Triple.pure (Q := fun _ => InLoop (Settled p)) (InLoop.stable settled_rx_stable)
  have hclear : ∀ {flags : Byte}, flags ≠ PKTIF → Triple RingEnv RxGuard (InLoop (Settled p))
      (clear_interrupt flags) fun _ => InLoop (Settled p) := fun hne =>
    triple_quiet (all_clear_flag (by decide) hne) (.clear_interrupt _)
  have hbit : Triple RingEnv RxGuard (InLoop (Settled p)) (serviceBit fuel cnt)
      fun _ => InLoop (Settled p) := by
    unfold serviceBit
    split
    · exact hclear (by decide)
    · exact hclear (by decide)
    · exact hdone
    · refine Triple.bind (triple_gotoRx nofun) fun _ => ?_
      refine Triple.bind (hclear (by decide)) fun _ => ?_
      exact Triple.bind (triple_setTxBusyRx false) fun _ => triple_gotoRx nofun
    · refine Triple.bind (triple_quiet (all_readPhyReg (by decide) fuel _)
        (.of_keeps (fun _ => Keeps.readPhyReg fuel _) fun _ _ => trivial)) fun _ => ?_
      exact triple_quiet (all_link_change_int_clear (by decide))
        (.of_leave fun _ => Keeps.BitFieldClear_bank0 rfl _ (by decide))
    · exact hclear (by decide)
    · exact absurd rfl h
    · exact hdone
  unfold serviceFlag
  split
  · refine Triple.bind (triple_quiet (all_global_int_Clear (by decide)) .global_int_Clear)
      fun _ => ?_
    refine Triple.bind hbit fun _ => ?_
    exact triple_quiet (all_global_Int_Set (by decide)) .global_Int_Set
  · exact hdone

end Enc28j60
