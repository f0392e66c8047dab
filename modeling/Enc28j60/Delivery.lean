import Enc28j60.Serve

/-!
# Enc28j60.Delivery

Whether a frame that the chip has accepted arrives at lwIP.

* **reception** — `enc28j60_etherReceive` follows the record of the oldest
  unread frame, whatever its length (`Copying p f d j`).  `rxPktLen` lies before
  `rxPkt.data`, so even a frame that runs over the end of that array is read
  back in full from where it was stored.
* **service** — nothing between the reception and `netif_input` touches the
  frame, and what lwIP sends meanwhile delivers nothing.

The length check refuses 1518 bytes, and the interface permits them.
-/

namespace Enc28j60

open Res

variable {p : Progress} {f : RxFrame} {d : Dev} {j : Nat}

/-! ## the frame in the ring -/

/-- `f` is the oldest unread frame, and SPI reads succeed. -/
structure Unread (p : Progress) (f : RxFrame) (w : World) : Prop where
  halOk : w.halOk = true
  ring : w.chip.RxRing p.start p.released
  front : Front p.released p.start f w

theorem ring_of_env {w w' : World} (h : Env w w') {q n : Nat} (hw : w.chip.RxRing q n) :
    w'.chip.RxRing q n := by
  cases h with
  | chip hc =>
      rcases Chip.rx_of_event hc with ⟨f', hf, rfl⟩ | hsame
      · exact hw.receive hf
      · exact hsame.ring hw
  | handler he hc => exact hw
  | lwip offered pbufs => exact hw
  | hal b => exact hw

theorem unread_of_env {w w' : World} (h : HalEnv w w') (hw : Unread p f w) : Unread p f w' :=
  ⟨h.2, ring_of_env h.1 hw.ring, front_of_env h.1 hw.front⟩

theorem Unread.keep {w w' : World} (h : Unread p f w) (hchip : w.chip.RxSame w'.chip)
    (hal : w'.halOk = w.halOk) : Unread p f w' where
  halOk := hal.trans h.halOk
  ring := hchip.ring h.ring
  front := by
    unfold Front
    rw [hchip.accepted]
    exact h.front

/-- `rxPkt.ptrAddr` is where it starts. -/
def AtFront (p : Progress) (f : RxFrame) (w : World) : Prop :=
  (w.dev.u16 ptrAddr).toNat = p.start ∧ Unread p f w

theorem atFront_stable : Stable HalEnv (fun _ => True) (AtFront p f) where
  env w w' h hw := by
    refine ⟨?_, unread_of_env h hw.2⟩
    rw [(dev_of_env h.1).1]
    exact hw.1
  guard _ _ := trivial

theorem atFront_blind : Blind (AtFront p f) := by
  intro w w' h hw
  cases h with
  | idle => exact hw
  | sel s => exact ⟨hw.1, hw.2.keep (.refl _) rfl⟩
  | cache b => exact ⟨hw.1, hw.2.keep (.refl _) rfl⟩
  | store off bs hs => exact hs.elim
  | spi hc => exact ⟨hw.1, hw.2.keep (Chip.rxSame_of_blind hc).1 rfl⟩
  | fetch off hc hs => exact hs.elim

/-! ## the reception -/

/-- `j` bytes of its record are read; `d` is the driver's record. -/
structure Copying (p : Progress) (f : RxFrame) (d : Dev) (j : Nat) (w : World) : Prop where
  unread : Unread p f w
  erdpt : (w.chip.ptr Chip.ERDPT).toNat = (p.start + j) % Chip.ringSize
  sel : w.sel = opcode.u8readBufferMemory
  dev : w.dev = d.setBank w.dev.bnBank

theorem copying_stable : Stable HalEnv (fun _ => True) (Copying p f d j) where
  env w w' h hw := by
    obtain ⟨hdev, hsel⟩ := dev_of_env h.1
    refine ⟨unread_of_env h hw.unread, ?_, hsel.trans hw.sel, ?_⟩
    · unfold Chip.ptr
      rw [regs_of_env h.1]
      exact hw.erdpt
    · rw [hdev]
      exact hw.dev
  guard _ _ := trivial

/-- A read continues the record. -/
theorem triple_copy (off n : Nat) (hfit : j + n ≤ 6 + f.data.length) :
    Triple HalEnv (fun _ => True) (Copying p f d j) (spiRead off n) fun _ =>
      Copying p f (d.store off (((recordOf p f).drop j).take n)) (j + n) := by
  refine Triple.act copying_stable (fun _ => copying_stable) fun w hw => ?_
  obtain ⟨hbytes, herdpt⟩ := readBuffer_record hw.unread.ring hw.unread.front hw.erdpt hfit
  rw [if_pos ⟨hw.unread.halOk, hw.sel⟩]
  refine ⟨hw.unread.keep (Chip.rxSame_readBuffer n w.chip) rfl, herdpt, hw.sel, ?_⟩
  rw [← hbytes]
  exact congrArg (fun d' : Dev => d'.store off (Chip.readBuffer n w.chip).1) hw.dev

theorem triple_headerField (off : Nat) (v : Dev → BitVec 16) (hv : ∀ d b, v (d.setBank b) = v d) :
    Triple HalEnv (fun _ => True) (Copying p f d j) (modifyDev fun d => d.setU16 off (v d))
      fun _ => Copying p f (d.setU16 off (v d)) j := by
  refine Triple.modify copying_stable (fun _ => copying_stable) fun w hw => ?_
  have hvw : v w.dev = v d := by
    rw [hw.dev]
    exact hv d _
  refine ⟨hw.unread.keep (.refl _) rfl, hw.erdpt, hw.sel, ?_⟩
  dsimp only
  rw [hvw]
  exact congrArg (fun d' : Dev => d'.setU16 off (v d)) hw.dev

theorem triple_copyingDev {φ : Dev → Prop} (h : ∀ b, φ (d.setBank b)) :
    Triple HalEnv (fun _ => True) (Copying p f d j) getDev fun a w => φ a ∧ Copying p f d j w := by
  refine Triple.gets copying_stable (fun _ => copying_stable.pure_and) fun w hw => ⟨?_, hw⟩
  rw [hw.dev]
  exact h _

/-- The length check accepts what is below its threshold. -/
theorem triple_copyLength : Triple HalEnv (fun _ => True) (Copying p f d j) checkPktLen
    fun err w => (err = true ↔ (d.u16 rxPktLen).toNat < 1518) ∧ Copying p f (checked d) j w :=
  triple_lengthCheck (P := fun d => Copying p f d j) (fun _ => copying_stable)
    (fun w hw => by rw [hw.dev, Dev.u16_setBank])
    (triple_headerField rxPktLen (fun _ => 0) fun _ _ => rfl)

/-- A frame that is not refused is in `rxPkt`. -/
theorem loaded_receivedBy (hlen : f.data.length < 1518) : Loaded f (receivedBy p f d) := by
  obtain ⟨_, _, hdata⟩ := recordOf_header p f
  have hsize := headedBy_rxPktLen p f d
  rw [if_neg (by omega)] at hsize
  unfold receivedBy
  rw [hdata, hsize, List.take_length]
  refine ⟨?_, Mem.load_store _ _ _⟩
  rw [Dev.u16_store_of_disjoint (.inl (by decide)), hsize]

/-- The frame is in `rxPkt`, unless it was refused. -/
def Got (f : RxFrame) (w : World) : Prop := f.data.length < 1518 → Loaded f w.dev

theorem got_stable : Stable HalEnv (fun _ => True) (Got f) where
  env w w' h hw hlen := by
    rw [(dev_of_env h.1).1]
    exact hw hlen
  guard _ _ := trivial

/-- Only a store could change it. -/
theorem got_of_act {A : BitVec 5 → Prop} {w w' : World} (h : Act A (fun _ => False) w w')
    (hw : Got f w) : Got f w' := by
  cases h with
  | idle => exact hw
  | sel s => exact hw
  | cache b => exact hw
  | store off bs hs => exact hs.elim
  | spi hc => exact hw
  | fetch off hc hs => exact hs.elim

theorem triple_got {α : Type} {m : Fw α} (h : All (Act (fun _ => True) fun _ => False) m) :
    Triple HalEnv (fun _ => True) (Got f) m fun _ => Got f :=
  Triple.frame got_stable h fun _ _ hact hw => got_of_act hact hw

/-- One call of `enc28j60_etherReceive`. -/
theorem triple_etherReceive_got : Triple HalEnv (fun _ => True)
    (fun w => AtFront p f w ∧ Cached (fun _ => True) w) etherReceive
    fun err w => (err = true ↔ f.data.length < 1518) ∧ Got f w := by
  have htransact : ∀ (w : World) (reg : Option Byte) (cmd : Byte) (out : List Byte) (c : Chip),
      w.chip.RxSame c → AtFront p f w → AtFront p f (w.transact reg cmd out [] c) :=
    fun w _ _ _ c hc hw => ⟨hw.1, hw.2.keep hc rfl⟩
  have hin : Stable HalEnv (fun _ => True) fun w => AtFront p f w ∧ Cached (fun _ => True) w :=
    ⟨fun w w' h hw => ⟨atFront_stable.env w w' h hw.1,
      cached_stable.env w w' (bankEnv_of_env h.1) hw.2⟩, fun _ _ => trivial⟩
  unfold etherReceive
  refine Triple.bind (M := fun dev w => (dev.u16 ptrAddr).toNat = p.start ∧
    AtFront p f w ∧ Cached (fun _ => True) w) ?_ fun dev => Triple.of_pure fun hptr => ?_
  · exact Triple.gets hin (fun _ => hin.pure_and) fun w hw => ⟨hw.1.1, hw⟩
  refine Triple.bind (triple_writePtr (fun _ _ h => h.1) atFront_stable atFront_blind htransact
    (by decide) (by decide) (by decide) (by decide) _) fun _ => ?_
  refine Triple.bind (M := fun _ w => ∃ d, Copying p f d 0 w) ?_ fun _ => ?_
  · refine Triple.conseq (Triple.modify
      (stable_ptr (fun _ _ h => h.1) atFront_stable Chip.ERDPT (dev.u16 ptrAddr))
      (Q := fun _ w => ∃ d, Copying p f d 0 w) (fun _ => ?_) fun w hw => ?_)
      (fun w hw => hw.1) fun _ _ hw => hw
    · exact ⟨fun w w' h ⟨d, hw⟩ => ⟨d, copying_stable.env w w' h hw⟩, fun _ _ => trivial⟩
    · refine ⟨w.dev, hw.2.2.keep (.refl _) rfl, ?_, rfl, rfl⟩
      show (w.chip.ptr Chip.ERDPT).toNat = _
      rw [hw.1, hptr, Nat.add_zero, Nat.mod_eq_of_lt hw.2.2.ring.lt]
  refine Triple.exists fun d => ?_
  refine Triple.bind (triple_copy nxtPktAddr 2 (by omega)) fun _ => ?_
  refine Triple.bind (triple_headerField ptrAddr (fun d => d.u16 nxtPktAddr) fun _ _ => rfl)
    fun _ => ?_
  refine Triple.bind (triple_copy rxStatVect 4 (by omega)) fun _ => ?_
  refine Triple.bind (triple_headerField rxPktLen (fun d => d.u16 rxStatVect) fun _ _ => rfl)
    fun _ => ?_
  refine Triple.bind (M := fun err w => (err = true ↔ f.data.length < 1518) ∧
    Copying p f (headedBy p f d) 6 w) ?_ fun err => Triple.of_pure fun hread => ?_
  · refine Triple.conseq triple_copyLength (fun _ hw => hw) fun err w hw => ⟨?_, hw.2⟩
    rw [hw.1, Dev.u16_setU16, (recordOf_header p f).2.1, Dev.u16_store, word_hi_lo, toNat_length]
  refine Triple.bind (triple_copyingDev (φ := fun a => a.u16 rxPktLen = (headedBy p f d).u16
    rxPktLen) fun b => Dev.u16_setBank _ b rxPktLen) fun dev => Triple.of_pure fun hlen => ?_
  rw [hlen]
  refine Triple.bind (M := fun _ => Got f) ?_ fun _ => ?_
  · refine Triple.conseq (triple_copy (d := headedBy p f d) rxData _ ?_) (fun _ hw => hw)
      fun _ w hw hsmall => ?_
    · rw [headedBy_rxPktLen]
      split <;> omega
    · have hload := loaded_receivedBy (p := p) (d := d) hsmall
      rw [hw.dev]
      exact hload
  -- what follows stores nothing
  refine Triple.bind (triple_got ((all_modify _).mpr fun _ => .sel _)) fun _ => ?_
  refine Triple.bind (triple_got all_getDev) fun dev' => ?_
  refine Triple.bind (triple_got (all_writeReg16 trivial trivial _)) fun _ => ?_
  exact Triple.conseq (Triple.pure (Q := fun err w => (err = true ↔ f.data.length < 1518) ∧
    Got f w) got_stable.pure_and) (fun _ hw => ⟨hread, hw⟩) fun _ _ hw => hw

/-! ## the service -/

/-- `pbuf_alloc` gives a chain of total length `len`. -/
def Supplied (len : Nat) (w : World) : Prop := ∃ lens, w.pbufs = some lens ∧ lens.sum = len

/-- The environment, with SPI reads that succeed and such chains. -/
def SupplyEnv (len : Nat) (w w' : World) : Prop := HalEnv w w' ∧ Supplied len w'

/-- What lwIP has been given so far. -/
def Given (f : RxFrame) (ds : List (List Byte)) (w : World) : Prop :=
  w.delivered = ds ∧ Supplied f.data.length w

variable {ds : List (List Byte)}

theorem given_stable : Stable (SupplyEnv f.data.length) (fun _ => True) (Given f ds) where
  env w w' h hw := by
    refine ⟨?_, h.2⟩
    rw [← hw.1]
    cases h.1.1 <;> rfl
  guard _ _ := trivial

theorem given_of_act {A : BitVec 5 → Prop} {S : Nat → Prop} {w w' : World} (h : Act A S w w')
    (hw : Given f ds w) : Given f ds w' := by
  cases h <;> exact hw

/-- The frame is in `rxPkt` as well. -/
def Carried (f : RxFrame) (ds : List (List Byte)) (w : World) : Prop :=
  Loaded f w.dev ∧ Given f ds w

theorem carried_stable : Stable (SupplyEnv f.data.length) (fun _ => True) (Carried f ds) where
  env w w' h hw := by
    refine ⟨?_, given_stable.env w w' h hw.2⟩
    rw [(dev_of_env h.1.1).1]
    exact hw.1
  guard _ _ := trivial

/-- The whole frame fills the chain. -/
theorem translation_eq (h : Loaded f d) {lens : List Nat} (hlens : lens.sum = f.data.length) :
    ethernet_do_translation_to_pbub d lens = f.data := by
  unfold ethernet_do_translation_to_pbub
  rw [flatten_pbuf_take, h.1, hlens, if_neg (Nat.lt_irrefl _), h.2, List.take_length]

/-- Sending delivers nothing. -/
theorem triple_linkOutput_given : Triple (SupplyEnv f.data.length) (fun _ => True) (Given f ds)
    linkOutput fun _ => Given f ds := by
  refine Triple.frame given_stable (all_linkOutput (K := fun w w' => w'.delivered = w.delivered ∧
    w'.pbufs = w.pbufs) (fun w w' h => ?_) fun w w' h hdel => ⟨hdel, ?_⟩) fun w w' h hw => ?_
  · cases h <;> exact ⟨rfl, rfl⟩
  · cases h <;> rfl
  · obtain ⟨lens, hlens, hsum⟩ := hw.2
    exact ⟨h.1.trans hw.1, lens, h.2.trans hlens, hsum⟩

theorem triple_deliver_given : Triple (SupplyEnv f.data.length) (fun _ => True) (Carried f ds)
    deliver fun _ => Given f (ds ++ [f.data]) := by
  unfold deliver
  refine Triple.bind (M := fun b w => (∃ lens, b = some lens ∧ lens.sum = f.data.length) ∧
    Carried f ds w) ?_ fun b => Triple.of_pure fun hb => ?_
  · exact Triple.gets carried_stable (fun _ => carried_stable.pure_and) fun w hw => ⟨hw.2.2, hw⟩
  obtain ⟨lens, rfl, hsum⟩ := hb
  refine Triple.bind (M := fun dev w => Loaded f dev ∧ Carried f ds w) ?_
    fun dev => Triple.of_pure fun hload => ?_
  · exact Triple.gets carried_stable (fun _ => carried_stable.pure_and) fun w hw => ⟨hw.1, hw⟩
  unfold netif_input
  rw [translation_eq hload hsum]
  refine Triple.bind (Triple.modify carried_stable (fun _ => given_stable) fun w hw => ?_)
    fun _ => triple_linkOutput_given
  exact ⟨congrArg (· ++ [f.data]) hw.2.1, hw.2.2⟩

/-- Case 6 of the pass hands over a frame that is not refused. -/
theorem triple_servicePacket_given (hlen : f.data.length < 1518) :
    Triple (SupplyEnv f.data.length) (fun _ => True)
      (fun w => Given f ds w ∧ AtFront p f w ∧ Cached (fun _ => True) w) servicePacket
      fun _ => Given f (ds ++ [f.data]) := by
  have hmodify : ∀ {g : World → World}, (∀ w, (g w).dev = w.dev ∧ (g w).delivered = w.delivered ∧
      (g w).pbufs = w.pbufs) → Triple (SupplyEnv f.data.length) (fun _ => True) (Carried f ds)
      (Res.modify g) fun _ => Carried f ds := fun {g} hg =>
    Triple.modify carried_stable (fun _ => carried_stable) fun w hw => by
      unfold Carried Given Supplied
      rw [(hg w).1, (hg w).2.1, (hg w).2.2]
      exact hw
  unfold servicePacket
  refine Triple.bind (M := fun err w => err = true ∧ Carried f ds w) ?_
    fun err => Triple.of_pure fun herr => ?_
  · have hrest : Triple (SupplyEnv f.data.length) (fun _ => True) (Given f ds) etherReceive
        fun _ => Given f ds :=
      Triple.frame given_stable (all_etherReceive (A := fun _ => True) (S := fun _ => True)
        (fun _ _ => trivial) fun _ _ => trivial) fun _ _ h hw => given_of_act h hw
    refine Triple.conseq (Triple.and (fun _ _ h => h.1) hrest triple_etherReceive_got)
      (fun _ hw => hw) fun err w hw => ?_
    exact ⟨hw.2.1.mpr hlen, hw.2.2 hlen, hw.1⟩
  refine Triple.bind (M := fun _ => Carried f ds) ?_ fun _ => ?_
  · refine Triple.frame carried_stable (all_clear_pktif (A := fun _ => True)
      (S := fun _ => False) trivial) fun w w' h hw => ⟨?_, given_of_act h hw.2⟩
    exact got_of_act h (fun _ => hw.1) hlen
  refine Triple.bind (hmodify fun _ => ⟨rfl, rfl, rfl⟩) fun _ => ?_
  refine Triple.bind (hmodify fun _ => ⟨rfl, rfl, rfl⟩) fun _ => ?_
  rw [if_pos herr]
  exact triple_deliver_given

/-! ## termination -/

theorem total_etherTransmit (off : Nat) (len : BitVec 16) : Total (etherTransmit off len) := by
  unfold etherTransmit loadFrame
  refine Total.bind ?_ fun _ => ?_
  · refine total_getDev.bind fun _ => ?_
    refine (total_writeReg16 _ _ _).bind fun _ => ?_
    refine (total_writeReg16 _ _ _).bind fun _ => ?_
    refine (total_modifyDev _).bind fun _ => ?_
    refine total_getDev.bind fun _ => ?_
    exact (total_spiSend _ _ _).bind fun _ => total_writeReg16 _ _ _
  · refine (total_sendReg _ _ _).bind fun _ => ?_
    refine (total_sendReg _ _ _).bind fun _ => ?_
    refine (total_sendReg _ _ _).bind fun _ => ?_
    exact (total_sendReg _ _ _).bind fun _ => total_pure _

theorem total_copySegs (segs : List Seg) (offset : BitVec 16) : Total (copySegs segs offset) := by
  induction segs generalizing offset with
  | nil => exact total_pure _
  | cons q next ih => exact (total_modifyDev _).bind fun _ => ih _

theorem total_translate (b : Pbuf) : Total (translate b) := by
  have hbody : Total (translateBody b) := by
    unfold translateBody
    refine Total.bind (total_act _) fun busy => Total.ite ?_ (total_pure _)
    refine (total_copySegs _ _).bind fun offset => Total.ite (total_pure _) ?_
    exact (total_etherTransmit _ _).bind fun _ => Total.bind (total_act _) fun _ => total_pure _
  unfold translate
  refine Total.bind (total_act _) fun _ => hbody.bind fun _ => ?_
  exact Total.bind (total_act _) fun _ => total_pure _

theorem total_linkOutput : Total linkOutput := by
  unfold linkOutput
  refine Total.bind (total_act _) fun frames => ?_
  induction frames with
  | nil => exact total_pure _
  | cons b next ih => exact (total_translate b).bind fun _ => ih

theorem total_servicePacket : Total servicePacket := by
  have hdeliver : Total deliver := by
    unfold deliver
    refine Total.bind (total_act _) fun b => ?_
    cases b with
    | none => exact total_pure _
    | some lens =>
        refine total_getDev.bind fun _ => ?_
        exact Total.bind (total_act _) fun _ => total_linkOutput
  unfold servicePacket
  refine total_etherReceive.bind fun err => ?_
  refine Total.bind (total_sendReg _ _ _) fun _ => ?_
  refine Total.bind (total_act _) fun _ => ?_
  refine Total.bind (total_act _) fun _ => ?_
  exact Total.ite hdeliver (total_pure _)

/-! ## every frame -/

/-- Frame number `n` is `f`, it is the oldest unread one, and it starts at `q`. -/
structure Awaiting (q n : Nat) (f : RxFrame) (w : World) : Prop where
  banks : Cached (fun _ => True) w
  halOk : w.halOk = true
  ring : w.chip.RxRing q n
  front : Front n q f w
  ptrAddr : (w.dev.u16 ptrAddr).toNat = q

/-- One service of PKTIF hands lwIP the frame. -/
structure Delivers (f : RxFrame) (w : World) : Prop where
  /-- The service ends, -/
  ends : ∀ m w₁, Steps HalEnv (servicePacket, w) (m, w₁) → ∃ w', run m w₁ = some ((), w')
  /-- its reception returns true, -/
  received : ∀ err w', Steps HalEnv (etherReceive, w) (pure err, w') → err = true
  /-- and the chain passed to `netif_input` holds the frame's bytes in order. -/
  handed : ∀ w', Supplied f.data.length w →
    Steps (SupplyEnv f.data.length) (servicePacket, w) (pure (), w') →
      w'.delivered = w.delivered ++ [f.data]

section Frames

variable {q n : Nat} {w : World}

theorem Awaiting.atFront (h : Awaiting q n f w) :
    AtFront (.idle q n) f w ∧ Cached (fun _ => True) w :=
  ⟨⟨h.ptrAddr, h.halOk, h.ring, h.front⟩, h.banks⟩

theorem Awaiting.received (h : Awaiting q n f w) {err : Bool} {w' : World}
    (hs : Steps HalEnv (etherReceive, w) (pure err, w')) :
    err = true ↔ f.data.length < 1518 :=
  ((triple_etherReceive_got w h.atFront).steps hs w' .refl).2.1

theorem Awaiting.delivers (h : Awaiting q n f w) (hlen : f.data.length < 1518) : Delivers f w where
  ends m w₁ hs := by
    obtain ⟨_, w', hrun⟩ := total_servicePacket.steps hs
    exact ⟨w', hrun⟩
  received err w' hs := (h.received hs).mpr hlen
  handed w' hsup hs := by
    have hw : Given f w.delivered w ∧ AtFront (.idle q n) f w ∧ Cached (fun _ => True) w :=
      ⟨⟨rfl, hsup⟩, h.atFront⟩
    exact ((triple_servicePacket_given hlen w hw).steps hs w' .refl).2.1

theorem Awaiting.not_delivers (h : Awaiting q n f w) (hlen : 1518 ≤ f.data.length) :
    ¬ Delivers f w := fun hdel => by
  obtain ⟨err, w', hrun⟩ := total_etherReceive.steps (R := HalEnv) (s := w) .refl
  have hs := steps_of_run HalEnv hrun
  have := (h.received hs).mp (hdel.received err w' hs)
  omega

/-- **Delivery.**  The oldest unread frame is handed to lwIP, whatever it contains
and wherever it lies, just when its reported length is below 1518. -/
theorem delivers_iff (h : Awaiting q n f w) : Delivers f w ↔ f.data.length < 1518 := by
  refine ⟨fun hdel => ?_, h.delivers⟩
  by_contra hlen
  exact h.not_delivers (Nat.not_lt.mp hlen) hdel

end Frames

/-- After `enc28j60_strtDr`, a frame arrives. -/
theorem awaiting_strtDr {w : World} (hw : run (strtDr 1) World.powerOn = some ((), w))
    (hf : Chip.footprint f ≤ 0x17FE) : Awaiting 0 0 f (w.drive (w.chip.receive f)) := by
  have hstart := rxStart_strtDr hw
  have haccepts := accepts_strtDr hw hf
  refine ⟨?_, hstart.fair.halOk, hstart.ring.receive haccepts, ?_, ?_⟩
  · exact cached_stable.env _ _ (bankEnv_of_env (.chip (.receive f haccepts))) hstart.banks
  · show (w.chip.accepted ++ [(w.chip.erxwrpt.toNat, f)])[0]? = some (0, f)
    rw [hstart.accepted, hstart.erxwrpt]
    rfl
  · show (w.dev.u16 ptrAddr).toNat = 0
    rw [hstart.ptrAddr]
    rfl

/-- A received frame of `n` equal bytes. -/
def uniform (n : Nat) (h : n < 2 ^ 16) : RxFrame :=
  ⟨0, List.replicate n 0xAA, by rw [List.length_replicate]; exact h⟩

theorem length_uniform (n : Nat) (h : n < 2 ^ 16) : (uniform n h).data.length = n :=
  List.length_replicate

theorem exists_strtDr : ∃ w, run (strtDr 1) World.powerOn = some ((), w) := by
  have hrun : (run (strtDr 1) World.powerOn).isSome = true := by decide +kernel
  obtain ⟨⟨_, w⟩, hw⟩ := Option.isSome_iff_exists.mp hrun
  exact ⟨w, hw⟩

/-- A frame of the minimum length is delivered. -/
theorem delivers_iff_shortest : ∃ w, run (strtDr 1) World.powerOn = some ((), w) ∧
    Delivers (uniform 64 (by decide)) (w.drive (w.chip.receive (uniform 64 (by decide)))) := by
  obtain ⟨w, hw⟩ := exists_strtDr
  exact ⟨w, hw, (delivers_iff (awaiting_strtDr hw (by decide))).mpr (by decide)⟩

/-- A frame of the maximum length is not. -/
theorem not_delivers_longest : ¬ ∀ (q n : Nat) (f : RxFrame) (w : World), Awaiting q n f w →
    64 ≤ f.data.length → f.data.length ≤ 1518 → Delivers f w := by
  intro h
  obtain ⟨w, hw⟩ := exists_strtDr
  have hlen := length_uniform 1518 (by decide)
  have hfoot : Chip.footprint (uniform 1518 (by decide)) ≤ 0x17FE := by
    unfold Chip.footprint
    omega
  have hawait := awaiting_strtDr hw hfoot
  exact hawait.not_delivers (by omega) (h _ _ _ _ hawait (by omega) (by omega))

end Enc28j60
