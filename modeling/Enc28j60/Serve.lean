import Enc28j60.Progress
import Enc28j60.Receive
import Enc28j60.Calls

/-!
# Enc28j60.Serve

One service of PKTIF, and from it every service of a run.

`enc28j60_etherReceive` follows the record of the oldest frame through the ring
(`Reading p f d j`: `j` bytes of it are read) while the chip goes on receiving
behind it; then it gives the frame's space back, EPKTCNT is decremented, and the
frame is handed to lwIP (`Holding`).
-/

namespace Enc28j60

open Res

variable {p : Progress} {f : RxFrame} {d : Dev} {j : Nat}

/-! ## the oldest frame -/

/-- Frame number `n` is `f`, and it starts at `a`. -/
def Front (n a : Nat) (f : RxFrame) (w : World) : Prop := w.chip.accepted[n]? = some (a, f)

theorem front_of_env {n a : Nat} {w w' : World} (h : Env w w') (hw : Front n a f w) :
    Front n a f w' := by
  have hkeep : w'.chip.accepted = w.chip.accepted → Front n a f w' := fun heq => by
    unfold Front
    rw [heq]
    exact hw
  cases h with
  | chip hc =>
      rcases Chip.rx_of_event hc with ⟨f', _, hc'⟩ | hsame
      · subst hc'
        show (w.chip.accepted ++ [_])[n]? = some (a, f)
        rw [List.getElem?_append_left (List.getElem?_eq_some_iff.mp hw).1]
        exact hw
      · exact hkeep hsame.accepted
  | handler he hc => exact hkeep rfl
  | lwip offered pbufs => exact hkeep rfl
  | hal b => exact hkeep rfl

/-- Where the frame after `f` starts. -/
def Progress.next (p : Progress) (f : RxFrame) : Nat := (p.start + Chip.footprint f) % Chip.ringSize

/-- `f` is the oldest frame in the ring. -/
def Oldest (p : Progress) (f : RxFrame) (w : World) : Prop :=
  Front p.released p.start f w ∧ Settled p w

theorem oldest_inert : Inert (Oldest p f) where
  stable := ⟨fun w w' h hw => ⟨front_of_env h.1 hw.1, settled_rx_stable.env w w' h hw.2⟩,
    fun w hw => settled_rx_stable.guard w hw.2⟩
  blind w w' h hw := by
    refine ⟨?_, settled_blind w w' h hw.2⟩
    cases h with
    | idle => exact hw.1
    | sel s => exact hw.1
    | cache b => exact hw.1
    | store off bs hs => exact hs.elim
    | spi hc =>
        unfold Front
        rw [show (w.transact _ _ _ _ _).chip.accepted = _ from (Chip.rxSame_of_blind hc).1.accepted]
        exact hw.1
    | fetch off hc hs => exact hs.elim
  transact w reg cmd out c hc hw := by
    refine ⟨?_, settled_inert.transact w reg cmd out c hc hw.2⟩
    show c.accepted[p.released]? = _
    rw [hc.accepted]
    exact hw.1

/-! ## reading its record -/

/-- `j` bytes of the oldest frame's record are read; `d` is the driver's record. -/
structure Reading (p : Progress) (f : RxFrame) (d : Dev) (j : Nat) (w : World) : Prop where
  rx : RxAt p w
  away : Away w
  front : Front p.released p.start f w
  erdpt : (w.chip.ptr Chip.ERDPT).toNat = (p.start + j) % Chip.ringSize
  sel : w.sel = opcode.u8readBufferMemory
  dev : w.dev = d.setBank w.dev.bnBank

theorem reading_stable : Stable RingEnv RxGuard (Reading p f d j) where
  env w w' h hw := by
    obtain ⟨hdev, hsel⟩ := dev_of_env h.1
    refine ⟨rxAt_of_env h hw.rx, away_of_env h hw.away, front_of_env h.1 hw.front, ?_,
      hsel.trans hw.sel, ?_⟩
    · unfold Chip.ptr
      rw [regs_of_env h.1]
      exact hw.erdpt
    · rw [hdev]
      exact hw.dev
  guard _ hw err hat := absurd hat (hw.away err)

/-- The bytes of the record that lies in the ring. -/
def recordOf (p : Progress) (f : RxFrame) : List Byte := Chip.image (p.next f) f

/-- The next `n` bytes from ERDPT, and where it stands afterwards. -/
theorem readBuffer_record {w : World} (hring : w.chip.RxRing p.start p.released)
    (hfront : Front p.released p.start f w)
    (herdpt : (w.chip.ptr Chip.ERDPT).toNat = (p.start + j) % Chip.ringSize) {n : Nat}
    (hfit : j + n ≤ 6 + f.data.length) :
    (Chip.readBuffer n w.chip).1 = ((recordOf p f).drop j).take n ∧
      ((Chip.readBuffer n w.chip).2.ptr Chip.ERDPT).toNat =
        (p.start + (j + n)) % Chip.ringSize := by
  have hlt : (w.chip.ptr Chip.ERDPT).toNat < Chip.ringSize := by
    rw [herdpt]
    exact Nat.mod_lt _ (by decide)
  obtain ⟨_, hload, _⟩ := hring.front hfront
  constructor
  · unfold recordOf Progress.next
    rw [Chip.readBuffer_fst hring.regs hlt, herdpt, Ring.load_mod, ← hload,
      Ring.take_drop_load _ _ _ hfit]
  · rw [Chip.ptr_readBuffer hring.regs hlt, herdpt, Nat.mod_add_mod, Nat.add_assoc]

/-- A read continues the record. -/
theorem triple_fetch (off n : Nat) (hfit : j + n ≤ 6 + f.data.length) :
    Triple RingEnv RxGuard (InLoop (Reading p f d j)) (spiRead off n) fun _ =>
      InLoop (Reading p f (d.store off (((recordOf p f).drop j).take n)) (j + n)) := by
  refine KeepsBank.and bankEnv_of_ringEnv (.of_same fun _ => Keeps.spiRead off n) ?_
  refine Triple.act reading_stable (fun _ => reading_stable) fun w hw => ?_
  obtain ⟨hbytes, herdpt⟩ := readBuffer_record hw.rx.ring hw.front hw.erdpt hfit
  have hsame := Chip.rxSame_readBuffer n w.chip
  rw [if_pos ⟨hw.rx.fair.halOk, hw.sel⟩]
  refine ⟨hw.rx.keep hsame rfl rfl rfl rfl, hw.away, ?_, herdpt, hw.sel, ?_⟩
  · show (Chip.readBuffer n w.chip).2.accepted[_]? = _
    rw [hsame.accepted]
    exact hw.front
  · rw [← hbytes]
    exact congrArg (fun d' : Dev => d'.store off (Chip.readBuffer n w.chip).1) hw.dev

/-- A field of `rxPkt` is computed from the others. -/
theorem triple_field (off : Nat) (v : Dev → BitVec 16) (hv : ∀ d b, v (d.setBank b) = v d) :
    Triple RingEnv RxGuard (InLoop (Reading p f d j)) (modifyDev fun d => d.setU16 off (v d))
      fun _ => InLoop (Reading p f (d.setU16 off (v d)) j) := by
  refine KeepsBank.and bankEnv_of_ringEnv (.of_same fun _ => Keeps.modifyDev_setU16 off v) ?_
  refine Triple.modify reading_stable (fun _ => reading_stable) fun w hw => ?_
  have hvw : v w.dev = v d := by
    rw [hw.dev]
    exact hv d _
  refine ⟨hw.rx.keep (.refl _) rfl rfl rfl rfl, hw.away, hw.front, hw.erdpt, hw.sel, ?_⟩
  dsimp only
  rw [hvw]
  exact congrArg (fun d' : Dev => d'.setU16 off (v d)) hw.dev

theorem triple_checkLength :
    Triple RingEnv RxGuard (InLoop (Reading p f d j)) checkPktLen fun err w =>
      (err = true ↔ (d.u16 rxPktLen).toNat < 1518) ∧ InLoop (Reading p f (checked d) j) w :=
  triple_lengthCheck (P := fun d => InLoop (Reading p f d j))
    (fun _ => InLoop.stable reading_stable) (fun w hw => by rw [hw.1.dev, Dev.u16_setBank])
    (triple_field rxPktLen (fun _ => 0) fun _ _ => rfl)

/-! ## giving its space back -/

/-- The record is read; `d` is the driver's record. -/
structure Fetched (p : Progress) (f : RxFrame) (d : Dev) (w : World) : Prop where
  rx : RxAt p w
  away : Away w
  front : Front p.released p.start f w
  dev : w.dev = d.setBank w.dev.bnBank

theorem fetched_stable : Stable RingEnv RxGuard (Fetched p f d) where
  env w w' h hw := by
    obtain ⟨hdev, _⟩ := dev_of_env h.1
    refine ⟨rxAt_of_env h hw.rx, away_of_env h hw.away, front_of_env h.1 hw.front, ?_⟩
    rw [hdev]
    exact hw.dev
  guard _ hw err hat := absurd hat (hw.away err)

/-- The low byte of ERXRDPT is written. -/
def Locking (p : Progress) (f : RxFrame) (d : Dev) (v : Byte) (w : World) : Prop :=
  w.chip.erxrdptl = v ∧ Fetched p f d w

theorem erxrdptl_of_env {w w' : World} (h : Env w w') : w'.chip.erxrdptl = w.chip.erxrdptl := by
  cases h with
  | chip hc => cases hc <;> rfl
  | handler he hc => rfl
  | lwip offered pbufs => rfl
  | hal b => rfl

theorem locking_stable {v : Byte} : Stable RingEnv RxGuard (Locking p f d v) where
  env w w' h hw := ⟨(erxrdptl_of_env h.1).trans hw.1, fetched_stable.env w w' h hw.2⟩
  guard w hw := fetched_stable.guard w hw.2

/-- Bank switches touch neither the frame nor the driver's copy of it. -/
theorem fetched_of_blind {w w' : World} (h : Act (fun _ => False) (fun _ => False) w w')
    (hw : Fetched p f d w) : Fetched p f d w' ∧ w'.chip.erxrdptl = w.chip.erxrdptl := by
  cases h with
  | idle => exact ⟨hw, rfl⟩
  | sel s =>
      exact ⟨⟨hw.rx.keep (.refl _) rfl rfl rfl rfl, hw.away, hw.front, hw.dev⟩, rfl⟩
  | cache b =>
      refine ⟨⟨hw.rx.keep (.refl _) rfl rfl rfl rfl, hw.away, hw.front, ?_⟩, rfl⟩
      have hdev : w.dev.setBank b = (d.setBank w.dev.bnBank).setBank b :=
        congrArg (fun d' : Dev => d'.setBank b) hw.dev
      exact hdev
  | store off bs hs => exact hs.elim
  | spi hc =>
      obtain ⟨hsame, _, herx⟩ := Chip.rxSame_of_blind hc
      refine ⟨⟨hw.rx.keep hsame rfl rfl rfl rfl, hw.away, ?_, hw.dev⟩, herx⟩
      exact (congrArg (·[p.released]?) hsame.accepted).trans hw.front
  | fetch off hc hs => exact hs.elim

/-- What is left to do for the frame: its space is given back, `ptrAddr` is
behind it, and it is in `rxPkt` if `err` says so. -/
structure Holding (p : Progress) (n : Nat) (f : RxFrame) (err : Bool) (w : World) : Prop where
  rx : RxAt p w
  dev : DevOk w.dev
  ptr : (w.dev.u16 ptrAddr).toNat = p.start
  front : ∃ a, Front n a f w
  read : err = true ↔ f.data.length ≤ 1500
  loaded : err = true → Loaded f w.dev

theorem holding_of_env {n : Nat} {err : Bool} {w w' : World} (h : RingEnv w w')
    (hw : Holding p n f err w) : Holding p n f err w' := by
  obtain ⟨hdev, _⟩ := dev_of_env h.1
  obtain ⟨a, hfront⟩ := hw.front
  refine ⟨rxAt_of_env h hw.rx, ?_, ?_, ⟨a, front_of_env h.1 hfront⟩, hw.read, ?_⟩
  · rw [hdev]
    exact hw.dev
  · rw [hdev]
    exact hw.ptr
  · rw [hdev]
    exact hw.loaded

/-- `P`, away from the end of a service. -/
def Apart (P : World → Prop) (w : World) : Prop := Away w ∧ P w

theorem holding_stable {n : Nat} {err : Bool} :
    Stable RingEnv RxGuard (Apart (Holding p n f err)) where
  env _ _ h hw := ⟨away_of_env h hw.1, holding_of_env h hw.2⟩
  guard _ hw err hat := absurd hat (hw.1 err)

/-- The errata formula is the ring predecessor. -/
theorem toNat_lockPointer (hd : DevOk d) {v : BitVec 16} (hv : v.toNat < Chip.ringSize) :
    (lockPointer d v).toNat = Chip.ringPred v.toNat := by
  unfold lockPointer Chip.ringPred
  rw [hd.rxBufStartAddr, hd.rxBufEndAddr]
  unfold Chip.ringSize at *
  by_cases h0 : v = 0x0000
  · rw [if_pos h0, h0]
    rfl
  · have hpos : v.toNat ≠ 0 := fun h => h0 (BitVec.eq_of_toNat_eq h)
    have hone : (1 : BitVec 16).toNat = 1 := rfl
    rw [if_neg h0, BitVec.toNat_sub, hone]
    omega

/-- The progress after the oldest frame's space is given back. -/
def Progress.release (p : Progress) (f : RxFrame) : Progress :=
  { p with start := p.next f, released := p.released + 1 }

theorem Fetched.release {w : World} (h : Fetched p f d w) (hd : DevOk d)
    (hptr : (d.u16 ptrAddr).toNat = p.next f) {err : Bool}
    (herr : err = true ↔ f.data.length ≤ 1500) (hload : err = true → Loaded f d)
    (reg : Option Byte) (cmd : Byte) (out : List Byte) :
    Apart (Holding (p.release f) p.released f err) (w.transact reg cmd out []
      ((w.chip.setReg 0 0x0C (lo (lockPointer d (d.u16 ptrAddr)))).setReg 0 0x0D
        (hi (lockPointer d (d.u16 ptrAddr))))) := by
  have hv := toNat_lockPointer hd (v := d.u16 ptrAddr) (by
    rw [hptr]
    exact Nat.mod_lt _ (by decide))
  generalize lockPointer d (d.u16 ptrAddr) = v at hv
  have hregs := h.rx.ring.regs
  have hlock : ((w.chip.setReg 0 0x0C (lo v)).setReg 0 0x0D (hi v)).ptr Chip.ERXRDPT = v := by
    simp [Chip.ptr, Chip.setReg, word_hi_lo]
  have hst : ∀ a ∈ [Chip.ERXST, Chip.ERXND],
      ((w.chip.setReg 0 0x0C (lo v)).setReg 0 0x0D (hi v)).ptr a = w.chip.ptr a := by
    intro a ha
    simp only [List.mem_cons, List.not_mem_nil, or_false] at ha
    rcases ha with rfl | rfl <;> simp [Chip.ptr, Chip.setReg]
  refine ⟨h.away, ⟨?_, h.rx.count, h.rx.served, h.rx.passed_le, h.rx.order,
    ⟨h.rx.fair.halOk, h.rx.fair.length, h.rx.fair.offered⟩⟩, ?_, ?_, ⟨p.start, h.front⟩, herr, ?_⟩
  · refine h.rx.ring.release h.front ⟨?_, ?_, hregs.autoinc⟩ rfl rfl rfl ?_
    · exact (hst _ (by simp)).trans hregs.erxst
    · exact (hst _ (by simp)).trans hregs.erxnd
    · rw [hptr] at hv
      exact (congrArg BitVec.toNat hlock).trans hv
  · show DevOk w.dev
    rw [h.dev]
    exact ⟨hd.rxBufStartAddr, hd.rxBufEndAddr, hd.txBufStartAddr⟩
  · show (w.dev.u16 ptrAddr).toNat = p.next f
    rw [h.dev, Dev.u16_setBank, hptr]
  · intro he
    show Loaded f w.dev
    rw [h.dev]
    exact hload he

/-- ERXRDPT is written low byte first; the high byte moves it. -/
theorem triple_lock (hd : DevOk d) (hptr : (d.u16 ptrAddr).toNat = p.next f) {err : Bool}
    (herr : err = true ↔ f.data.length ≤ 1500) (hload : err = true → Loaded f d) :
    Triple RingEnv RxGuard (InLoop (Fetched p f d))
      (writeReg16 bank0.ERXRDPTL bank0.ERXRDPTH (lockPointer d (d.u16 ptrAddr)))
      fun _ => InLoop (Apart (Holding (p.release f) p.released f err)) := by
  unfold writeReg16
  refine Triple.bind (M := fun _ => InLoop (Locking p f d (lo (lockPointer d (d.u16 ptrAddr)))))
    ?_ fun _ => ?_
  · refine triple_writeReg_bank0 bankEnv_of_ringEnv fetched_stable
      (fun _ _ h hw => (fetched_of_blind h hw).1) locking_stable (by decide) fun w hw => ?_
    exact ⟨rfl, hw.rx.keep (.of_eq rfl rfl rfl rfl rfl rfl) rfl rfl rfl rfl, hw.away, hw.front,
      hw.dev⟩
  · refine triple_writeReg_bank0 bankEnv_of_ringEnv locking_stable (fun w w' h hw => ?_)
      holding_stable (by decide) fun w hw => ?_
    · obtain ⟨hf, herx⟩ := fetched_of_blind h hw.2
      exact ⟨herx.trans hw.1, hf⟩
    · have hchip : w.chip.writeBanked 0 (regAddr bank0.ERXRDPTH)
          (hi (lockPointer d (d.u16 ptrAddr))) = (w.chip.setReg 0 0x0C w.chip.erxrdptl).setReg 0 0x0D
            (hi (lockPointer d (d.u16 ptrAddr))) := rfl
      rw [hchip, hw.1]
      exact hw.2.release hd hptr herr hload _ _ _

/-! ## the reception -/

/-- Next-packet pointer and status vector of a record. -/
theorem recordOf_header (p : Progress) (f : RxFrame) :
    ((recordOf p f).drop 0).take 2 =
        [lo (BitVec.ofNat 16 (p.next f)), hi (BitVec.ofNat 16 (p.next f))] ∧
      ((recordOf p f).drop 2).take 4 = [lo (BitVec.ofNat 16 f.data.length),
        hi (BitVec.ofNat 16 f.data.length), lo f.flags, hi f.flags] ∧
      (recordOf p f).drop 6 = f.data :=
  ⟨rfl, rfl, rfl⟩

theorem toNat_length (f : RxFrame) : (BitVec.ofNat 16 f.data.length).toNat = f.data.length := by
  rw [BitVec.toNat_ofNat]
  exact Nat.mod_eq_of_lt f.length_lt

theorem toNat_next (p : Progress) (f : RxFrame) : (BitVec.ofNat 16 (p.next f)).toNat = p.next f :=
  Chip.toNat_ofNat_mod _

theorem devOk_headed (hd : DevOk d) (nxt stat payload : List Byte) :
    DevOk ((headed d nxt stat).store rxData payload) := by
  obtain ⟨hst, hnd, htx⟩ := hd
  have hbufs : ∀ d : Dev, (checked d).rxBufStartAddr = d.rxBufStartAddr ∧
      (checked d).rxBufEndAddr = d.rxBufEndAddr ∧ (checked d).txBufStartAddr = d.txBufStartAddr := by
    intro d
    unfold checked
    split <;> exact ⟨rfl, rfl, rfl⟩
  unfold headed
  exact ⟨(hbufs _).1.trans hst, (hbufs _).2.1.trans hnd, (hbufs _).2.2.trans htx⟩

/-- The driver's record after the header of the frame. -/
def headedBy (p : Progress) (f : RxFrame) (d : Dev) : Dev :=
  headed d (((recordOf p f).drop 0).take 2) (((recordOf p f).drop 2).take 4)

theorem headedBy_rxPktLen (p : Progress) (f : RxFrame) (d : Dev) :
    ((headedBy p f d).u16 rxPktLen).toNat =
      if 1518 ≤ f.data.length then 0 else f.data.length := by
  obtain ⟨h2, h4, _⟩ := recordOf_header p f
  unfold headedBy
  rw [h2, h4, headed_rxPktLen, word_hi_lo, toNat_length]
  split
  · rfl
  · exact toNat_length f

/-- The driver's record after the frame. -/
def receivedBy (p : Progress) (f : RxFrame) (d : Dev) : Dev :=
  (headedBy p f d).store rxData
    (((recordOf p f).drop 6).take ((headedBy p f d).u16 rxPktLen).toNat)

/-- If its length is not between the two bounds, `ptrAddr` survives, and a frame
that is not refused is in `rxPkt`. -/
theorem receivedBy_spec (hd : DevOk d) (hlen : f.data.length ≤ 1500 ∨ 1518 ≤ f.data.length) :
    DevOk (receivedBy p f d) ∧ ((receivedBy p f d).u16 ptrAddr).toNat = p.next f ∧
      (f.data.length ≤ 1500 → Loaded f (receivedBy p f d)) := by
  obtain ⟨h2, h4, hdata⟩ := recordOf_header p f
  unfold receivedBy
  rw [hdata, headedBy_rxPktLen]
  have hpay : (f.data.take (if 1518 ≤ f.data.length then 0 else f.data.length)).length ≤ 1500 := by
    rw [List.length_take]
    split <;> omega
  refine ⟨devOk_headed hd _ _ _, ?_, fun hle => ⟨?_, ?_⟩⟩
  · rw [Dev.u16_store_of_disjoint (.inr (by unfold rxData ptrAddr; omega))]
    unfold headedBy
    rw [h2, h4, headed_ptrAddr, word_hi_lo, toNat_next]
  · rw [Dev.u16_store_of_disjoint (.inl (by decide)), headedBy_rxPktLen, if_neg (by omega)]
  · rw [if_neg (by omega), List.take_length]
    exact Mem.load_store _ _ _

/-- The transaction that reads the record begins. -/
theorem triple_open (v : BitVec 16) (hv : v.toNat = p.start) :
    Triple RingEnv RxGuard (InLoop fun w => w.chip.ptr Chip.ERDPT = v ∧ Oldest p f w)
      (spiOpen opcode.u8readBufferMemory) fun _ w => ∃ d, DevOk d ∧
        (f.data.length ≤ 1500 ∨ 1518 ≤ f.data.length) ∧ InLoop (Reading p f d 0) w := by
  have hP : Stable RingEnv RxGuard fun w => w.chip.ptr Chip.ERDPT = v ∧ Oldest p f w :=
    stable_ptr env_of_ringEnv oldest_inert.stable Chip.ERDPT v
  have hQ : Stable RingEnv RxGuard fun w => ∃ d, DevOk d ∧
      (f.data.length ≤ 1500 ∨ 1518 ≤ f.data.length) ∧ Reading p f d 0 w :=
    ⟨fun w w' h ⟨d, hd, hlen, hw⟩ => ⟨d, hd, hlen, reading_stable.env w w' h hw⟩,
      fun w ⟨_, _, _, hw⟩ => reading_stable.guard w hw⟩
  refine Triple.conseq (KeepsBank.and bankEnv_of_ringEnv (.of_same fun _ => Keeps.spiOpen _)
    (Triple.modify hP (fun _ => hQ) fun w hw => ?_)) (fun _ hw => hw)
    fun _ w hw => ?_
  · obtain ⟨herdpt, hfront, hset⟩ := hw
    have hlt := hset.rx.ring.lt
    refine ⟨w.dev, hset.dev, hset.rx.fair.length _ (List.mem_of_getElem? hfront),
      hset.rx.keep (.refl _) rfl rfl rfl rfl, hset.away, hfront, ?_, rfl, rfl⟩
    rw [Nat.add_zero, Nat.mod_eq_of_lt hlt, ← hv, ← herdpt]
  · obtain ⟨⟨d, hd, hlen, hread⟩, hbank⟩ := hw
    exact ⟨d, hd, hlen, hread, hbank⟩

theorem triple_close :
    Triple RingEnv RxGuard (InLoop (Reading p f d j)) spiClose fun _ => InLoop (Fetched p f d) :=
  KeepsBank.and bankEnv_of_ringEnv (.of_same fun _ => Keeps.spiClose)
    (Triple.modify reading_stable (fun _ => fetched_stable) fun _ hw =>
      ⟨hw.rx.keep (.refl _) rfl rfl rfl rfl, hw.away, hw.front, hw.dev⟩)

/-- One call of `enc28j60_etherReceive` on the oldest frame. -/
theorem triple_etherReceiveRx :
    Triple RingEnv RxGuard (InLoop (Oldest p f)) etherReceive fun err =>
      InLoop (Apart (Holding (p.release f) p.released f err)) := by
  have hold := oldest_inert (p := p) (f := f)
  unfold etherReceive
  refine Triple.bind (triple_getDev_inLoop (φ := fun a => (a.u16 ptrAddr).toNat = p.start)
    hold.stable fun w hw => hw.2.ptr) fun dev => Triple.of_pure fun hptr => ?_
  refine Triple.bind (triple_writePtr env_of_ringEnv hold.stable hold.blind hold.transact
    (by decide) (by decide) (by decide) (by decide) _) fun _ => ?_
  refine Triple.bind (triple_open _ hptr) fun _ => ?_
  refine Triple.exists fun d => Triple.of_pure fun hd => Triple.of_pure fun hfair => ?_
  refine Triple.bind (triple_fetch nxtPktAddr 2 (by omega)) fun _ => ?_
  refine Triple.bind (triple_field ptrAddr (fun d => d.u16 nxtPktAddr) fun _ _ => rfl) fun _ => ?_
  refine Triple.bind (triple_fetch rxStatVect 4 (by omega)) fun _ => ?_
  refine Triple.bind (triple_field rxPktLen (fun d => d.u16 rxStatVect) fun _ _ => rfl) fun _ => ?_
  refine Triple.bind (M := fun err w => (err = true ↔ f.data.length ≤ 1500) ∧
    InLoop (Reading p f (headedBy p f d) 6) w) ?_ fun err => Triple.of_pure fun hread => ?_
  · refine Triple.conseq triple_checkLength (fun _ hw => hw) fun err w hw => ⟨?_, hw.2⟩
    rw [hw.1, Dev.u16_setU16, (recordOf_header p f).2.1, Dev.u16_store, word_hi_lo, toNat_length]
    omega
  refine Triple.bind (triple_getDev_inLoop (φ := fun a => a.u16 rxPktLen = (headedBy p f d).u16
    rxPktLen) reading_stable fun w hw => ?_) fun dev => Triple.of_pure fun hlen => ?_
  · rw [hw.dev, Dev.u16_setBank]
  rw [hlen]
  refine Triple.bind (M := fun _ => InLoop (Reading p f (receivedBy p f d) _))
    (triple_fetch rxData _ ?_) fun _ => ?_
  · rw [headedBy_rxPktLen]
    split <;> omega
  refine Triple.bind triple_close fun _ => ?_
  obtain ⟨hd', hptr', hload⟩ := receivedBy_spec (p := p) hd hfair
  refine Triple.bind (triple_getDev_inLoop (φ := fun a => lockPointer a (a.u16 ptrAddr) =
      lockPointer (receivedBy p f d) ((receivedBy p f d).u16 ptrAddr)) fetched_stable fun w hw => ?_)
    fun dev' => Triple.of_pure fun hlock => ?_
  · rw [hw.dev]
    rfl
  rw [hlock]
  refine Triple.bind (triple_lock hd' hptr' hread fun he => hload (hread.mp he)) fun _ => ?_
  exact Triple.pure (Q := fun err => InLoop (Apart (Holding (p.release f) p.released f err)))
    (InLoop.stable holding_stable)

/-! ## the acknowledgement -/

section Service

variable {q n : Nat} {err : Bool}

theorem holding_blind : Blind (Apart (Holding p n f err)) := by
  intro w w' h hw
  obtain ⟨haway, hrx, hdev, hptr, ⟨a, hfront⟩, hread, hload⟩ := hw
  cases h with
  | idle => exact ⟨haway, hrx, hdev, hptr, ⟨a, hfront⟩, hread, hload⟩
  | sel s =>
      exact ⟨haway, hrx.keep (.refl _) rfl rfl rfl rfl, hdev, hptr, ⟨a, hfront⟩, hread, hload⟩
  | cache b =>
      exact ⟨haway, hrx.keep (.refl _) rfl rfl rfl rfl, ⟨hdev.1, hdev.2, hdev.3⟩, hptr,
        ⟨a, hfront⟩, hread, hload⟩
  | store off bs hs => exact hs.elim
  | spi hc =>
      have hsame := (Chip.rxSame_of_blind hc).1
      exact ⟨haway, hrx.keep hsame rfl rfl rfl rfl, hdev, hptr,
        ⟨a, (congrArg (·[n]?) hsame.accepted).trans hfront⟩, hread, hload⟩
  | fetch off hc hs => exact hs.elim

theorem Chip.RxRing.pktDec {c : Chip} {r : Nat} (h : c.RxRing q r) : c.pktDec.RxRing q r :=
  ⟨⟨h.regs.erxst, h.regs.erxnd, h.regs.autoinc⟩, h.laid, h.lt, h.even, h.used, h.lock, h.le⟩

/-- EPKTCNT is decremented for the frame. -/
theorem triple_acknowledge (hn : p.acked = n) :
    Triple RingEnv RxGuard (InLoop (Apart (Holding p n f err))) (clear_interrupt PKTIF)
      fun _ => InLoop (Apart (Holding { p with acked := n + 1 } n f err)) := by
  refine KeepsBank.and bankEnv_of_ringEnv (.clear_interrupt PKTIF) ?_
  unfold clear_interrupt
  rw [if_pos (by decide), if_pos rfl]
  refine Triple.bind (Triple.frame holding_stable (all_selectBank _) holding_blind) fun _ => ?_
  refine Triple.modify holding_stable (fun _ => holding_stable) fun w hw => ?_
  obtain ⟨haway, hrx, hdev, hptr, ⟨a, hfront⟩, hread, hload⟩ := hw
  have hcount := hrx.count
  have hpos : w.chip.epktcnt ≠ 0 := fun h0 => by
    have hlt := (List.getElem?_eq_some_iff.mp hfront).1
    rw [hcount, hn, h0] at hlt
    exact absurd hlt (by simp)
  have hpred : ∀ v : Byte, v ≠ 0 → (v - 1).toNat + 1 = v.toNat := by decide
  have hbit : ∀ v : Byte, ((v ||| 0x40) &&& 0xBF).getLsbD 7 = v.getLsbD 7 := by decide
  have hsame : w.chip.RxSame { w.chip with econ2 := (w.chip.econ2 ||| 0x40) &&& 0xBF } :=
    ⟨fun _ _ => rfl, fun _ _ => rfl, hbit _, rfl, rfl, rfl⟩
  rw [Chip.command_pktDec]
  refine ⟨haway, ⟨(hsame.ring hrx.ring).pktDec, ?_, hrx.served, hrx.passed_le, hrx.order,
    ⟨hrx.fair.halOk, hrx.fair.length, hrx.fair.offered⟩⟩, hdev, hptr, ⟨a, hfront⟩, hread, hload⟩
  show w.chip.accepted.length =
    n + 1 + (if w.chip.epktcnt = 0 then 0 else w.chip.epktcnt - 1).toNat
  rw [if_neg hpos, hcount, hn]
  have := hpred _ hpos
  omega

/-- Between two services. -/
def Progress.idle (q n : Nat) : Progress := ⟨q, n, n, n, n⟩

/-- Frame number `n` is served but not handed to lwIP. -/
def Progress.held (q n : Nat) : Progress := ⟨q, n + 1, n + 1, n + 1, n⟩

theorem Holding.serviced {w : World} (h : Holding (.held q n) n f err w) : Serviced err w := by
  obtain ⟨a, hfront⟩ := h.front
  have hserved : w.served = n + 1 := h.rx.served
  have hptr : (w.dev.u16 ptrAddr).toNat = q := h.ptr
  have hq : q < Chip.ringSize := h.rx.ring.lt
  refine ⟨?_, ?_, ?_, n, (a, f), hserved, hfront, h.read, h.loaded, h.rx.order⟩
  · rw [hserved]
    exact h.rx.count
  · rw [hserved, hptr]
    cases hnext : w.chip.accepted[n + 1]? with
    | none => exact (h.rx.ring.erxwrpt_of_none hnext).symm
    | some r => exact (h.rx.ring.front hnext).1.symm
  · have hlock := toNat_lockPointer h.dev (v := w.dev.u16 ptrAddr) (by rwa [hptr])
    apply BitVec.eq_of_toNat_eq
    rw [h.rx.ring.lock]
    show Chip.ringPred q = _
    rw [← hptr, ← hlock]
    unfold lockPointer
    rw [h.dev.rxBufStartAddr, h.dev.rxBufEndAddr]

theorem serviced_stable : Stable RingEnv RxGuard fun w =>
    w.at_ = .serviced err ∧ Holding (.held q n) n f err w where
  env w w' h hw := by
    refine ⟨?_, holding_of_env h hw.2⟩
    obtain ⟨henv, _⟩ := h
    cases henv <;> exact hw.1
  guard w hw err' hat := by
    rw [hw.1] at hat
    cases hat
    exact hw.2.serviced

/-- The end of a service, and past it. -/
theorem triple_servicedRx :
    Triple RingEnv RxGuard (InLoop (Apart (Holding ⟨q, n + 1, n + 1, n, n⟩ n f err))) (serviced err)
      fun _ => InLoop fun w => w.at_ = .serviced err ∧ Holding (.held q n) n f err w := by
  refine (KeepsBank.serviced err).and bankEnv_of_ringEnv
    (Triple.modify holding_stable (fun _ => serviced_stable) fun w hw => ?_)
  obtain ⟨_, hrx, hdev, hptr, ⟨a, hfront⟩, hread, hload⟩ := hw
  exact ⟨rfl, ⟨hrx.ring, hrx.count, congrArg (· + 1) hrx.served, hrx.passed_le, hrx.order,
    ⟨hrx.fair.halOk, hrx.fair.length, hrx.fair.offered⟩⟩, hdev, hptr, ⟨a, hfront⟩, hread, hload⟩

theorem triple_leaveService :
    Triple RingEnv RxGuard (InLoop fun w => w.at_ = .serviced err ∧ Holding (.held q n) n f err w)
      (goto .loop) fun _ => InLoop (Apart (Holding (.held q n) n f err)) := by
  refine (KeepsBank.goto .loop).and bankEnv_of_ringEnv
    (Triple.modify serviced_stable (fun _ => holding_stable) fun w hw => ?_)
  obtain ⟨_, hrx, hdev, hptr, ⟨a, hfront⟩, hread, hload⟩ := hw
  exact ⟨nofun, hrx.keep (.refl _) rfl rfl rfl rfl, hdev, hptr, ⟨a, hfront⟩, hread, hload⟩

/-! ## the delivery -/

/-- One more frame has been handed over, or skipped. -/
theorem Apart.settled {w w' : World} (h : Apart (Holding (.held q n) n f err) w)
    (hw' : w' = { w with delivered := w'.delivered })
    (horder : List.SublistForall₂ Carries w'.delivered (w.chip.accepted.take (n + 1))) :
    Settled (.idle q (n + 1)) w' := by
  obtain ⟨haway, hrx, hdev, hptr, ⟨a, hfront⟩, _⟩ := h
  rw [hw']
  exact ⟨⟨hrx.ring, hrx.count, hrx.served, (List.getElem?_eq_some_iff.mp hfront).1, horder,
    ⟨hrx.fair.halOk, hrx.fair.length, hrx.fair.offered⟩⟩, haway, hdev, hptr⟩

theorem Apart.order_skip {w : World} (h : Apart (Holding (.held q n) n f err) w) :
    List.SublistForall₂ Carries w.delivered (w.chip.accepted.take (n + 1)) := by
  obtain ⟨l, hl, hsub⟩ := List.sublistForall₂_iff.mp h.2.rx.order
  refine List.sublistForall₂_iff.mpr ⟨l, hl, hsub.trans ?_⟩
  exact List.take_sublist_take_left (Nat.le_succ n)

theorem Apart.order_pass {w : World} (h : Apart (Holding (.held q n) n f err) w) {bytes : List Byte}
    (hb : bytes <+: f.data) :
    List.SublistForall₂ Carries (w.delivered ++ [bytes]) (w.chip.accepted.take (n + 1)) := by
  obtain ⟨a, hfront⟩ := h.2.front
  obtain ⟨l, hl, hsub⟩ := List.sublistForall₂_iff.mp h.2.rx.order
  refine List.sublistForall₂_iff.mpr ⟨l ++ [(a, f)], ?_, ?_⟩
  · exact List.rel_append hl (.cons hb .nil)
  · rw [List.take_add_one, show w.chip.accepted[n]? = some (a, f) from hfront]
    exact hsub.append (List.Sublist.refl _)

end Service

theorem flatten_pbuf_take (lens : List Nat) (bytes : List Byte) :
    (pbuf_take lens bytes).flatten = bytes.take lens.sum := by
  induction lens generalizing bytes with
  | nil => simp [pbuf_take]
  | cons len next ih =>
      rw [pbuf_take, List.flatten_cons, ih, List.sum_cons, List.take_add]

/-- lwIP's buffer receives the frame's bytes, as many as it holds. -/
theorem translation_carries {d : Dev} (h : Loaded f d) (lens : List Nat) :
    ethernet_do_translation_to_pbub d lens <+: f.data := by
  obtain ⟨hlen, hload⟩ := h
  have hle : ∀ k ≤ f.data.length, Mem.load d.pkt rxData k = f.data.take k := fun k hk => by
    rw [← hload]
    simp [Mem.load, ← List.map_take, List.take_range, Nat.min_eq_left hk]
  unfold ethernet_do_translation_to_pbub
  rw [flatten_pbuf_take, hlen, hle]
  · exact (List.take_prefix _ _).trans (List.take_prefix _ _)
  · split <;> omega

section Service

variable {q n : Nat}

theorem triple_deliverRx :
    Triple RingEnv RxGuard (InLoop (Apart (Holding (.held q n) n f true))) deliver
      fun _ => InLoop (Settled (.idle q (n + 1))) := by
  have hstable : Stable RingEnv RxGuard (InLoop (Apart (Holding (.held q n) n f true))) :=
    InLoop.stable holding_stable
  unfold deliver
  refine Triple.bind (M := fun _ => InLoop (Apart (Holding (.held q n) n f true))) ?_
    fun ethBuffer => ?_
  · exact Triple.gets hstable (fun _ => hstable) fun _ hw => hw
  cases ethBuffer with
  | none =>
      refine Triple.conseq (Triple.pure (a := ()) (Q := fun _ => InLoop (Settled (.idle q (n + 1))))
        (InLoop.stable settled_rx_stable)) (fun w hw => ?_) fun _ _ hw => hw
      exact ⟨hw.1.settled rfl hw.1.order_skip, hw.2⟩
  | some lens =>
      refine Triple.bind (triple_getDev_inLoop (φ := Loaded f) holding_stable
        fun w hw => hw.2.loaded rfl) fun dev => Triple.of_pure fun hload => ?_
      refine Triple.bind ?_ fun _ => triple_linkOutputRx
      refine KeepsBank.and bankEnv_of_ringEnv (.modify fun _ => ⟨rfl, rfl, .rfl⟩) ?_
      refine Triple.modify holding_stable (fun _ => settled_rx_stable) fun w hw => ?_
      exact hw.settled rfl (hw.order_pass (translation_carries hload lens))

/-- Case 6 of the pass serves the oldest frame. -/
theorem triple_servicePacketRx :
    Triple RingEnv RxGuard (InLoop (Oldest (.idle q n) f)) servicePacket
      fun _ => InLoop (Settled (.idle ((Progress.idle q n).next f) (n + 1))) := by
  unfold servicePacket
  refine Triple.bind triple_etherReceiveRx fun err => ?_
  refine Triple.bind (triple_acknowledge rfl) fun _ => ?_
  refine Triple.bind triple_servicedRx fun _ => ?_
  refine Triple.bind triple_leaveService fun _ => ?_
  cases err with
  | true => exact triple_deliverRx
  | false =>
      refine Triple.conseq (Triple.pure (a := ()) (Q := fun _ => InLoop (Settled (.idle _ (n + 1))))
        (InLoop.stable settled_rx_stable)) (fun w hw => ?_) fun _ _ hw => hw
      exact ⟨hw.1.settled rfl hw.1.order_skip, hw.2⟩

/-! ## the pass -/

/-- The invariant at the head of the loop. -/
def LoopRx (w : World) : Prop := ∃ q n, InLoop (Settled (.idle q n)) w

theorem loopRx_stable : Stable RingEnv RxGuard LoopRx where
  env w w' h hw := by
    obtain ⟨q, n, hw⟩ := hw
    exact ⟨q, n, (InLoop.stable settled_rx_stable).env w w' h hw⟩
  guard w hw := by
    obtain ⟨q, n, hw⟩ := hw
    exact (InLoop.stable settled_rx_stable).guard w hw

/-- What keeps the ring settled keeps the invariant. -/
theorem triple_loopRx {α : Type} {m : Fw α}
    (h : ∀ p, Triple RingEnv RxGuard (InLoop (Settled p)) m fun _ => InLoop (Settled p)) :
    Triple RingEnv RxGuard LoopRx m fun _ => LoopRx :=
  Triple.exists fun q => Triple.exists fun n =>
    Triple.conseq (h (.idle q n)) (fun _ hw => hw) fun _ _ hw => ⟨q, n, hw⟩

/-- Actions outside the ring do not forget an accepted frame. -/
def SameFrames (w w' : World) : Prop := w'.chip.accepted = w.chip.accepted

theorem sameFrames_of_act {S : Nat → Prop} {w w' : World} (h : Act Outside S w w') :
    SameFrames w w' := by
  cases h with
  | idle => rfl
  | sel s => rfl
  | cache b => rfl
  | store off bs hs => rfl
  | spi hc => exact (rxSame_of_chipStep (fun _ ha => ha) hc).accepted
  | fetch off hc hs => exact (rxSame_of_chipStep (fun _ ha => ha) hc).accepted

/-- So a frame stays the oldest as long as the ring stays settled. -/
theorem triple_oldest {α : Type} {m : Fw α} (h : All SameFrames m)
    (hset : Triple RingEnv RxGuard (InLoop (Settled p)) m fun _ => InLoop (Settled p)) :
    Triple RingEnv RxGuard (InLoop (Oldest p f)) m fun _ => InLoop (Oldest p f) := by
  have hfront : Triple RingEnv (fun _ => True) (Front p.released p.start f) m
      fun _ => Front p.released p.start f :=
    Triple.frame ⟨fun _ _ h => front_of_env h.1, fun _ _ => trivial⟩ h fun w w' heq hw =>
      (congrArg (·[p.released]?) heq).trans hw
  refine Triple.conseq (Triple.and (fun _ _ hr => hr) hset hfront) (fun w hw => ?_)
    fun _ w hw => ?_
  · exact ⟨⟨hw.1.2, hw.2⟩, hw.1.1⟩
  · exact ⟨⟨hw.2, hw.1.1⟩, hw.1.2⟩

theorem triple_serviceFlag_before (fuel : Nat) (u8Value : Byte) {cnt : Nat} (h : cnt < 6) :
    Triple RingEnv RxGuard (InLoop (Oldest p f)) (serviceFlag fuel u8Value cnt)
      fun _ => InLoop (Oldest p f) := by
  have haddr : ∀ k < 6, ∀ a ∈ passAddrs k, Outside a := by decide
  refine triple_oldest ?_ (triple_serviceFlagRx fuel u8Value (by omega))
  refine all_serviceFlag (A := Outside) (fun _ _ => sameFrames_of_act) (fun w w' hloc => ?_) fuel
    u8Value cnt (haddr cnt h) (by decide)
  cases hloc <;> rfl

/-- PKTIF: the oldest frame is served. -/
theorem triple_servePktif (fuel : Nat) {u8Value : Byte} (hset : u8Value.getLsbD 6 = true) :
    Triple RingEnv RxGuard (InLoop (Oldest (.idle q n) f)) (serviceFlag fuel u8Value 6)
      fun _ => LoopRx := by
  have hclear : All (Act Outside fun _ => False) global_int_Clear :=
    all_global_int_Clear (by decide)
  unfold serviceFlag
  rw [if_pos hset]
  refine Triple.bind (triple_oldest (hclear.mono fun _ _ => sameFrames_of_act)
    (triple_quiet hclear .global_int_Clear)) fun _ => ?_
  refine Triple.bind triple_servicePacketRx fun _ => ?_
  exact Triple.conseq (triple_quiet (all_global_Int_Set (by decide)) .global_Int_Set)
    (fun _ hw => hw) fun _ _ hw => ⟨_, _, hw⟩

/-- What the snapshot promises: PKTIF is up only if a frame is unread. -/
def SnapRx (q n : Nat) (u8Value : Byte) (w : World) : Prop :=
  Settled (.idle q n) w ∧ (u8Value.getLsbD 6 = true → ∃ f, Oldest (.idle q n) f w)

theorem snapRx_stable {v : Byte} : Stable RingEnv RxGuard (SnapRx q n v) where
  env w w' h hw := by
    refine ⟨settled_rx_stable.env w w' h hw.1, fun hv => ?_⟩
    obtain ⟨f, hf⟩ := hw.2 hv
    exact ⟨f, oldest_inert.stable.env w w' h hf⟩
  guard w hw := settled_rx_stable.guard w hw.1

theorem triple_serviceFlagsRx (fuel : Nat) (u8Value : Byte) :
    Triple RingEnv RxGuard (InLoop (SnapRx q n u8Value))
      (serviceFlags fuel u8Value (List.range 8)) fun _ => LoopRx := by
  have hother : ∀ cnt ≠ 6, Triple RingEnv RxGuard LoopRx (serviceFlag fuel u8Value cnt)
      fun _ => LoopRx := fun cnt hne => triple_loopRx fun _ => triple_serviceFlagRx fuel u8Value hne
  cases hset : u8Value.getLsbD 6 with
  | true =>
      have hserve : Triple RingEnv RxGuard (fun w => ∃ f, InLoop (Oldest (.idle q n) f) w)
          (serviceFlags fuel u8Value (List.range 8)) fun _ => LoopRx := by
        refine Triple.exists fun f => ?_
        exact triple_serviceFlags_at loopRx_stable List.pairwise_lt_range (k := 6) (by decide)
          (fun cnt hlt => triple_serviceFlag_before fuel u8Value hlt) (triple_servePktif fuel hset)
          fun cnt hlt => hother cnt (by omega)
      refine Triple.conseq hserve (fun w hw => ?_) fun _ _ hw => hw
      obtain ⟨f, hf⟩ := hw.1.2 hset
      exact ⟨f, hf, hw.2⟩
  | false =>
      refine Triple.conseq (triple_serviceFlags_of_forall loopRx_stable fun cnt _ => ?_)
        (fun w hw => ⟨q, n, hw.1.1, hw.2⟩) fun _ _ hw => hw
      by_cases h6 : cnt = 6
      · subst h6
        unfold serviceFlag
        rw [hset]
        exact Triple.pure (Q := fun _ => LoopRx) loopRx_stable
      · exact hother cnt h6

/-- EPKTCNT is not 0: a frame is unread. -/
theorem exists_oldest {w : World} (h : Settled (.idle q n) w) (hcnt : w.chip.epktcnt ≠ 0) :
    ∃ f, Oldest (.idle q n) f w := by
  have hlt : n < w.chip.accepted.length := by
    have hcount : w.chip.accepted.length = n + w.chip.epktcnt.toNat := h.rx.count
    have hpos : w.chip.epktcnt.toNat ≠ 0 := fun h0 => hcnt (BitVec.eq_of_toNat_eq h0)
    omega
  have hget := List.getElem?_eq_getElem hlt
  have ha := (h.rx.ring.front (a := w.chip.accepted[n].1) (f := w.chip.accepted[n].2) hget).1
  refine ⟨w.chip.accepted[n].2, ?_, h⟩
  rw [show (Progress.idle q n).start = w.chip.accepted[n].1 from ha.symm]
  exact hget

theorem triple_snapshotRx :
    Triple RingEnv RxGuard (InLoop (Settled (.idle q n))) snapshot
      fun u8Value => InLoop (SnapRx q n u8Value) := by
  refine KeepsBank.snapshot.and bankEnv_of_ringEnv ?_
  unfold snapshot
  refine Triple.bind (M := fun v => SnapRx q n v) ?_ fun v => ?_
  · refine Triple.bind (Triple.frame settled_rx_stable (all_selectBank _) settled_blind)
      fun _ => ?_
    refine Triple.act settled_rx_stable (fun _ => snapRx_stable) fun w hw => ?_
    have hstep : ∀ reg inp, Act (fun _ => False) (fun _ => False) w (w.transact reg
        (opcode.u8readControlRegister ||| (0x1F &&& bank0.EIR)) [] inp (w.chip.readControl
          (opcode.u8readControlRegister ||| (0x1F &&& bank0.EIR)) 1).2) := fun _ _ =>
      .spi (.poll (Chip.addrOf (opcode.u8readControlRegister ||| (0x1F &&& bank0.EIR))))
    refine ⟨settled_blind _ _ (hstep _ _) hw, fun hv => ?_⟩
    have hcnt : w.chip.epktcnt ≠ 0 := fun h0 => by
      have hbit : ∀ v : Byte, ((v &&& 0x3F) ||| 0).getLsbD 6 = false := by decide
      rw [Chip.readControl_eir, Chip.eirValue, if_pos h0, hbit] at hv
      exact absurd hv Bool.false_ne_true
    obtain ⟨f, hf⟩ := exists_oldest hw hcnt
    exact ⟨f, oldest_inert.blind _ _ (hstep _ _) hf⟩
  · refine Triple.bind (M := fun _ => SnapRx q n v) ?_ fun _ => ?_
    · refine Triple.modify snapRx_stable (fun _ => snapRx_stable) fun w hw => ?_
      have hlog : Settled (.idle q n) { w with log := [] } :=
        ⟨hw.1.rx.keep (.refl _) rfl rfl rfl rfl, hw.1.away, hw.1.dev, hw.1.ptr⟩
      refine ⟨hlog, fun hv => ?_⟩
      obtain ⟨f, hf⟩ := hw.2 hv
      exact ⟨f, hf.1, hlog⟩
    · exact Triple.pure (Q := fun v => SnapRx q n v) snapRx_stable

/-- One pass serves at most one frame, and the ring is settled after it. -/
theorem triple_passRx (fuel : Nat) :
    Triple RingEnv RxGuard LoopRx (pass fuel) fun _ => LoopRx := by
  have hget : Triple RingEnv RxGuard LoopRx getDev fun _ => LoopRx :=
    Triple.gets loopRx_stable (fun _ => loopRx_stable) fun _ hw => hw
  unfold pass
  refine Triple.bind hget fun dev => ?_
  refine Triple.exists fun q => Triple.exists fun n => ?_
  refine Triple.bind triple_snapshotRx fun u8Value => ?_
  refine Triple.bind (triple_serviceFlagsRx fuel u8Value) fun _ => ?_
  refine Triple.bind (triple_loopRx fun _ => triple_gotoRx nofun) fun _ => ?_
  exact triple_loopRx fun _ => triple_gotoRx nofun

end Service

/-! ## every run -/

/-- The receive side as `enc28j60_strtDr` leaves it: the ring is empty, and
`ptrAddr` and ERXRDPT are at its start. -/
structure RxStart (w : World) : Prop where
  banks : Cached (fun _ => True) w
  regs : w.chip.RingRegs
  erxrdpt : w.chip.ptr Chip.ERXRDPT = 0x17FF
  erxwrpt : w.chip.erxwrpt = 0x0000
  epktcnt : w.chip.epktcnt = 0
  accepted : w.chip.accepted = []
  dev : DevOk w.dev
  ptrAddr : w.dev.u16 ptrAddr = 0x0000
  at_ : w.at_ = .loop
  served : w.served = 0
  delivered : w.delivered = []
  fair : Fair w

theorem RxStart.ring {w : World} (h : RxStart w) : w.chip.RxRing 0 0 := by
  refine ⟨h.regs, ?_, by decide, rfl, ?_, ?_, Nat.zero_le _⟩
  · rw [h.accepted, h.erxwrpt]
    exact rfl
  · rw [h.accepted]
    decide
  · rw [h.erxrdpt]
    decide

theorem loopRx_of_start {w : World} (h : RxStart w) : LoopRx w := by
  refine ⟨0, 0, ⟨⟨h.ring, ?_, h.served, Nat.zero_le _, ?_, h.fair⟩, ?_, h.dev, ?_⟩, h.banks⟩
  · rw [h.accepted, h.epktcnt]
    rfl
  · rw [h.delivered]
    exact .nil
  · intro err
    rw [h.at_]
    exact nofun
  · rw [h.ptrAddr]
    rfl

theorem triple_loopBodyRx (fuel : Nat) :
    Triple RingEnv RxGuard LoopRx (loopBody fuel) fun _ => LoopRx := by
  have hget : Triple RingEnv RxGuard LoopRx (Res.gets World.enc28j60intCounter) fun _ => LoopRx :=
    Triple.gets loopRx_stable (fun _ => loopRx_stable) fun _ hw => hw
  unfold loopBody serviceInterrupts
  refine Triple.bind (triple_loopRx fun _ => triple_linkOutputRx) fun _ => ?_
  refine Triple.bind hget fun cnt => ?_
  split
  · refine Triple.bind (M := fun _ => LoopRx) ?_ fun _ => triple_passRx fuel
    unfold decCounter
    refine Triple.bind hget fun cnt' => triple_loopRx fun p => ?_
    refine KeepsBank.and bankEnv_of_ringEnv (.modify fun _ => ⟨rfl, rfl, .rfl⟩) ?_
    exact Triple.modify settled_rx_stable (fun _ => settled_rx_stable) fun _ hw =>
      ⟨hw.rx.keep (.refl _) rfl rfl rfl rfl, hw.away, hw.dev, hw.ptr⟩
  · exact Triple.pure (Q := fun _ => LoopRx) loopRx_stable

theorem rxGuard_of_reachable {fuel : Nat} {w w' : World} {c : Ctl World} (hw : RxStart w)
    (h : Loop.Steps RingEnv (loopBody fuel) (.head, w) (c, w')) : RxGuard w' := by
  have hinv : Loop.Inv RingEnv RxGuard LoopRx (.head, w) := loopRx_of_start hw
  exact Loop.Inv.guard loopRx_stable
    (Loop.sound loopRx_stable (triple_loopBodyRx fuel) hinv h)

/-- Whenever a run of the main loop is right behind the acknowledgement of a
PKTIF, EPKTCNT, `rxPkt.ptrAddr` and ERXRDPT agree on the unread frames, and the
frame just served is in `rxPkt`. -/
theorem serviced_of_reachable {fuel : Nat} {w w' : World} {c : Ctl World} {err : Bool}
    (hw : RxStart w) (h : Loop.Steps RingEnv (loopBody fuel) (.head, w) (c, w'))
    (hat : w'.at_ = .serviced err) : Serviced err w' :=
  rxGuard_of_reachable hw h err hat

/-- A frame of four bytes. -/
def shortFrame : RxFrame := ⟨0, [0x11, 0x22, 0x33, 0x44], by decide⟩

/-- The frame arrives, and the EXTI handler runs. -/
def frameArrived (w : World) : World := handled (w.drive (w.chip.receive shortFrame))

/-- The first round of the loop up to the end of the service. -/
def frameServed (w : World) : Res World Unit × World := advance 46 (loopBody 1, frameArrived w)

/-- A fact about the state `enc28j60_strtDr` leaves at power-on. -/
theorem started_eq {β : Type} {w : World} (hw : Res.run (strtDr 1) World.powerOn = some ((), w))
    (g : World → β) {v : β} (h : (Res.run (strtDr 1) World.powerOn).map (fun r => g r.2) = some v) :
    g w = v := by
  rw [hw] at h
  exact Option.some.inj h

/-- `enc28j60_strtDr` programs the receive registers. -/
theorem rxStart_strtDr {w : World} (hw : Res.run (strtDr 1) World.powerOn = some ((), w)) :
    RxStart w := by
  have hregs := started_eq hw (fun w => (w.chip.ptr Chip.ERXST, w.chip.ptr Chip.ERXND,
    w.chip.autoinc, w.chip.ptr Chip.ERXRDPT)) (v := (0x0000, 0x17FF, true, 0x17FF)) (by decide +kernel)
  have hcount := started_eq hw (fun w => (w.chip.erxwrpt, w.chip.epktcnt, w.chip.accepted.length))
    (v := (0, 0, 0)) (by decide +kernel)
  have hdev := started_eq hw (fun w => (w.dev.rxBufStartAddr, w.dev.rxBufEndAddr,
    w.dev.txBufStartAddr, w.dev.u16 ptrAddr)) (v := (0x0000, 0x17FF, 0x1800, 0)) (by decide +kernel)
  have hmain := started_eq hw (fun w => (w.at_, w.served, w.delivered, w.halOk, w.offered.length))
    (v := (.loop, 0, [], true, 0)) (by decide +kernel)
  simp only [Prod.mk.injEq, List.length_eq_zero_iff] at hregs hcount hdev hmain
  obtain ⟨hst, hnd, hinc, hlock⟩ := hregs
  obtain ⟨hwr, hcnt, hacc⟩ := hcount
  obtain ⟨hd1, hd2, hd3, hptr⟩ := hdev
  obtain ⟨hat, hserved, hdel, hhal, hoff⟩ := hmain
  have hbanks : Cached (fun _ => True) w := by
    have hkeep := (Keeps.strtDr 1).triple False False.elim World.powerOn (at_start ⟨rfl, rfl, rfl⟩)
    exact ⟨_, (wp.steps hkeep (steps_of_run BankEnv hw) w .refl).2, trivial⟩
  refine ⟨hbanks, ⟨hst, hnd, hinc⟩, hlock, hwr, hcnt, hacc, ⟨hd1, hd2, hd3⟩, hptr, hat, hserved,
    hdel, hhal, ?_, ?_⟩
  · rw [hacc]
    exact nofun
  · rw [hoff]
    exact nofun

/-- The ring it leaves is empty: all but two of its bytes are free. -/
theorem accepts_strtDr {w : World} (hw : Res.run (strtDr 1) World.powerOn = some ((), w))
    {f : RxFrame} (hf : Chip.footprint f ≤ 0x17FE) : w.chip.accepts f := by
  have hfree := started_eq hw (fun w => (w.chip.econ1.getLsbD 2, w.chip.epktcnt, w.chip.freeSpace))
    (v := (true, 0, 0x17FE)) (by decide +kernel)
  simp only [Prod.mk.injEq] at hfree
  obtain ⟨hen, hcnt, hspace⟩ := hfree
  refine ⟨hen, ?_, hspace ▸ hf⟩
  rw [hcnt]
  decide

/-- From power-on: one frame arrives, one pass serves it. -/
theorem serviced_of_reachable_shortFrame :
    ∃ w c w', Res.run (strtDr 1) World.powerOn = some ((), w) ∧
      Loop.Steps RingEnv (loopBody 1) (.head, w) (c, w') ∧
      w'.at_ = .serviced true ∧ Serviced true w' := by
  have hrun : (Res.run (strtDr 1) World.powerOn).isSome = true := by decide +kernel
  obtain ⟨⟨_, w⟩, hw⟩ := Option.isSome_iff_exists.mp hrun
  have hstart := rxStart_strtDr hw
  have haccepts : w.chip.accepts shortFrame := accepts_strtDr hw (by decide)
  have hexti : (w.drive (w.chip.receive shortFrame)).exti = true :=
    started_eq hw (fun w => (w.drive (w.chip.receive shortFrame)).exti) (by decide +kernel)
  have hint : w.enc28j60intCounter = 0 :=
    started_eq hw World.enc28j60intCounter (by decide +kernel)
  have hend : (frameServed w).2.at_ = .serviced true :=
    started_eq hw (fun w => (frameServed w).2.at_) (by decide +kernel)
  have hfair : Fair (w.drive (w.chip.receive shortFrame)) := by
    refine ⟨hstart.fair.halOk, ?_, hstart.fair.offered⟩
    show ∀ r ∈ w.chip.accepted ++ [(w.chip.erxwrpt.toNat, shortFrame)], _
    rw [hstart.accepted]
    intro r hr
    obtain rfl := List.mem_singleton.mp hr
    exact .inl (by simp [shortFrame])
  have hne : (w.drive (w.chip.receive shortFrame)).enc28j60intCounter ≠ BitVec.allOnes 32 := by
    show w.enc28j60intCounter ≠ BitVec.allOnes 32
    rw [hint]
    decide
  have harrive : Loop.Steps RingEnv (loopBody 1) (.head, w) (.head, frameArrived w) :=
    .tail (.single (.env ⟨.chip (.receive shortFrame haccepts), hfair⟩))
      (.env ⟨.handler hexti hne, hfair.halOk, hfair.length, hfair.offered⟩)
  have hserve : Loop.Steps RingEnv (loopBody 1) (.head, w)
      (.run (frameServed w).1, (frameServed w).2) :=
    (harrive.tail .enter).trans (Loop.steps_of_steps _ (steps_advance RingEnv 46 _))
  exact ⟨w, _, _, hw, hserve, hend, serviced_of_reachable hstart hserve hend⟩

end Enc28j60
