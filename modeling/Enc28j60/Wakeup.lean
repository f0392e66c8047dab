import Enc28j60.Steps

/-!
# Enc28j60.Wakeup

No wake-up is lost.

INT is level-active, but the loop is woken by edges.  `Wake` says that an
asserted line is accounted for: by the counter or by a latched edge.  Every
action preserves it, because a line that goes up is an edge (`Edge`), except the
store of `enc28j60intCounter--`, which may overwrite the handler's increment.
The pass that follows repairs this: its EIR snapshot shows every flag that was
up before, and each flag it serves takes the line down and up again.
-/

namespace Enc28j60

open Res

/-- INT asserted means that a pass will come. -/
def Wake (w : World) : Prop :=
  w.chip.asserted = true → 0 < w.enc28j60intCounter ∨ w.exti = true

/-- A step that leaves the counter alone and latches a rising INT. -/
structure Edge (w w' : World) : Prop where
  counter : w'.enc28j60intCounter = w.enc28j60intCounter
  exti : w'.exti = (w.exti || (!w.chip.asserted && w'.chip.asserted))

theorem Edge.refl_of {w w' : World} (hc : w'.enc28j60intCounter = w.enc28j60intCounter)
    (he : w'.exti = w.exti) (hchip : w'.chip = w.chip) : Edge w w' := by
  refine ⟨hc, ?_⟩
  rw [he, hchip]
  cases w.chip.asserted <;> simp

theorem Edge.wake {w w' : World} (h : Edge w w') (hw : Wake w) : Wake w' := by
  intro ha
  rw [h.counter, h.exti, ha]
  cases hb : w.chip.asserted with
  | false => simp
  | true =>
      rcases hw hb with hc | he
      · exact .inl hc
      · simp [he]

theorem edge_drive (w : World) (c : Chip) : Edge w (w.drive c) := ⟨rfl, rfl⟩

/-- Every action of the driver reaches the chip through the INT line. -/
theorem edge_of_act {A : BitVec 5 → Prop} {S : Nat → Prop} {w w' : World} (h : Act A S w w') :
    Edge w w' := by
  cases h with
  | idle => exact .refl_of rfl rfl rfl
  | sel s => exact .refl_of rfl rfl rfl
  | cache b => exact .refl_of rfl rfl rfl
  | store off bs hs => exact .refl_of rfl rfl rfl
  | spi hc => exact ⟨rfl, rfl⟩
  | fetch off hc hs => exact ⟨rfl, rfl⟩

/-! ## the environment -/

theorem wake_of_env {w w' : World} (h : Env w w') (hw : Wake w) : Wake w' := by
  cases h with
  | chip hc => exact (edge_drive w _).wake hw
  | handler he hc =>
      intro _
      refine .inl ?_
      show 0 < w.enc28j60intCounter + 1
      have hne : w.enc28j60intCounter ≠ 0xFFFFFFFF := hc
      bv_omega
  | lwip offered pbufs => exact (Edge.refl_of rfl rfl rfl).wake hw
  | hal b => exact (Edge.refl_of rfl rfl rfl).wake hw

/-- The guarantee: nothing is asked of the moments between. -/
def Any (_ : World) : Prop := True

theorem wake_stable : Stable Env Any Wake := ⟨fun _ _ => wake_of_env, fun _ _ => trivial⟩

theorem any_stable : Stable Env Any Any := ⟨fun _ _ _ h => h, fun _ h => h⟩

/-! ## the functions of the loop -/

theorem edge_of_all {α : Type} {A : BitVec 5 → Prop} {S : Nat → Prop} {p : Fw α}
    (h : All (Act A S) p) : All Edge p :=
  h.mono fun _ _ => edge_of_act

theorem edge_goto (l : Label) : All Edge (goto l) :=
  (all_modify _).mpr fun _ => .refl_of rfl rfl rfl

theorem edge_of_local {w w' : World} (h : Local w w') : Edge w w' := by
  cases h with
  | goto l hl => exact .refl_of rfl rfl rfl
  | serviced err => exact .refl_of rfl rfl rfl
  | setTxBusy b => exact .refl_of rfl rfl rfl
  | deliver d => exact .refl_of rfl rfl rfl

theorem edge_gets {β : Type} (f : World → β) : All Edge (Res.gets f) :=
  all_gets_of_act (fun _ _ => edge_of_act) f

theorem edge_linkOutput : All Edge linkOutput :=
  all_linkOutput (fun _ _ => edge_of_act) fun _ _ h _ => edge_of_local h

theorem edge_serviceBit (fuel cnt : Nat) : All Edge (serviceBit fuel cnt) :=
  all_serviceBit (A := fun _ => True) (fun _ _ => edge_of_act) (fun _ _ => edge_of_local) fuel cnt
    fun _ _ => trivial

theorem edge_global_Int_Set : All Edge global_Int_Set :=
  edge_of_all (all_global_Int_Set (A := fun _ => True) (S := fun _ => True) trivial)

/-! ## one pass -/

/-- Clearing EIE.INTIE takes INT down. -/
theorem asserted_clear_intie (c : Chip) :
    (c.command (opcode.u8BitFieldClear ||| (0x1F &&& bank0.EIE)) [1 <<< 7]).asserted = false := by
  have hr : regAddr bank0.EIE = 0x1B := by decide
  have hbit : ∀ v : Byte, (v &&& ~~~(0x80 : Byte)).getLsbD 7 = false := by decide
  have heie : (c.bitFieldClear 0x1B 0x80).eie.getLsbD 7 = false := hbit c.eie
  rw [Chip.command_clear, hr]
  unfold Chip.asserted
  rw [show ((1 <<< 7 : Nat) : Byte) = 0x80 from rfl, heie]
  rfl

/-- Serving one flag takes the line down and up, whatever happened before. -/
theorem triple_global_int_Clear : Triple Env Any Any global_int_Clear fun _ => Wake := by
  refine Triple.bind (M := fun _ => Any) ?_ fun _ => ?_
  · exact Triple.frame any_stable (edge_of_all (all_selectBank (A := fun _ => True) (S := fun _ => True) _))
      fun _ _ _ _ => trivial
  · refine Triple.modify any_stable (fun _ => wake_stable) fun w _ ha => ?_
    exact absurd ((asserted_clear_intie w.chip).symm.trans ha) (by decide)

theorem triple_wake {α : Type} {p : Fw α} (h : All Edge p) : Triple Env Any Wake p fun _ => Wake :=
  Triple.frame wake_stable h fun _ _ => Edge.wake

theorem triple_serviceFlag_of_set {fuel cnt : Nat} {u8Value : Byte}
    (h : u8Value.getLsbD cnt = true) :
    Triple Env Any Any (serviceFlag fuel u8Value cnt) fun _ => Wake := by
  unfold serviceFlag
  rw [if_pos h]
  refine Triple.bind triple_global_int_Clear fun _ => ?_
  refine Triple.bind (triple_wake (edge_serviceBit fuel cnt)) fun _ => ?_
  exact triple_wake edge_global_Int_Set

/-- Either the line is accounted for, or a flag of the snapshot is still to be served. -/
def WakeOr (u8Value : Byte) (flags : List Nat) (w : World) : Prop :=
  Wake w ∨ ∃ cnt ∈ flags, u8Value.getLsbD cnt = true

theorem triple_serviceFlags (fuel : Nat) (u8Value : Byte) (flags : List Nat) :
    Triple Env Any (WakeOr u8Value flags) (serviceFlags fuel u8Value flags) fun _ => Wake := by
  induction flags with
  | nil =>
      refine Triple.conseq (Triple.pure (Q := fun _ => Wake) wake_stable) (fun w hw => ?_)
        fun _ _ hw => hw
      rcases hw with hw | ⟨cnt, hmem, _⟩
      · exact hw
      · cases hmem
  | cons cnt next ih =>
      by_cases hset : u8Value.getLsbD cnt = true
      · refine Triple.bind (M := fun _ => Wake) ?_ fun _ => ?_
        · exact Triple.conseq (triple_serviceFlag_of_set hset) (fun _ _ => trivial) fun _ _ hw => hw
        · exact Triple.conseq ih (fun _ hw => .inl hw) fun _ _ hw => hw
      · unfold serviceFlags serviceFlag
        rw [if_neg hset]
        refine Triple.conseq ih (fun w hw => ?_) fun _ _ hw => hw
        rcases hw with hw | ⟨c, hmem, hc⟩
        · exact .inl hw
        · rcases List.mem_cons.mp hmem with rfl | hmem
          · exact absurd hc hset
          · exact .inr ⟨c, hmem, hc⟩

/-- An asserted line shows in the snapshot. -/
theorem exists_flag_of_asserted {c : Chip} (h : c.asserted = true) :
    ∃ cnt ∈ List.range 8, c.eirValue.getLsbD cnt = true := by
  have hbits : ∀ v : Byte, v ≠ 0 → ∃ cnt ∈ List.range 8, v.getLsbD cnt = true := by decide
  refine hbits _ fun hzero => ?_
  simp [Chip.asserted, hzero] at h

theorem triple_snapshot :
    Triple Env Any Any snapshot fun u8Value => WakeOr u8Value (List.range 8) := by
  have hstable : ∀ v, Stable Env Any (WakeOr v (List.range 8)) := fun v =>
    ⟨fun w w' hr hw => hw.imp_left (wake_of_env hr), fun _ _ => trivial⟩
  refine Triple.bind (M := fun v => WakeOr v (List.range 8)) ?_ fun v => ?_
  · refine Triple.bind (M := fun _ => Any) ?_ fun _ => ?_
    · exact Triple.frame any_stable
        (edge_of_all (all_selectBank (A := fun _ => True) (S := fun _ => True) _)) fun _ _ _ _ => trivial
    · refine Triple.act any_stable hstable fun w _ => ?_
      dsimp only
      rw [Chip.readControl_eir]
      by_cases ha : w.chip.asserted = true
      · exact .inr (exists_flag_of_asserted ha)
      · exact .inl fun h => absurd h ha
  · refine Triple.bind (M := fun _ => WakeOr v (List.range 8)) ?_ fun _ => Triple.pure (hstable v)
    exact Triple.modify (hstable v) (fun _ => hstable v) fun w hw => hw

theorem triple_pass (fuel : Nat) : Triple Env Any Any (pass fuel) fun _ => Wake := by
  unfold pass
  refine Triple.bind (M := fun _ => Any) ?_ fun d => ?_
  · exact Triple.frame any_stable (edge_gets _) fun _ _ _ _ => trivial
  refine Triple.bind triple_snapshot fun u8Value => ?_
  refine Triple.bind (triple_serviceFlags fuel u8Value _) fun _ => ?_
  refine Triple.bind (triple_wake (edge_goto _)) fun _ => ?_
  exact triple_wake (edge_goto _)

/-! ## the loop -/

theorem triple_serviceInterrupts (fuel : Nat) :
    Triple Env Any Wake (serviceInterrupts fuel) fun _ => Wake := by
  unfold serviceInterrupts
  refine Triple.bind (triple_wake (edge_gets _)) fun n => ?_
  split
  · refine Triple.bind (M := fun _ => Any) ?_ fun _ => triple_pass fuel
    -- the store of the decrement is the one action that may break `Wake`
    refine Triple.bind (triple_wake (edge_gets _)) fun n => ?_
    exact Triple.modify wake_stable (fun _ => any_stable) fun _ _ => trivial
  · exact Triple.pure (Q := fun _ => Wake) wake_stable

theorem triple_loopBody (fuel : Nat) : Triple Env Any Wake (loopBody fuel) fun _ => Wake :=
  (triple_wake edge_linkOutput).bind fun _ => triple_serviceInterrupts fuel

theorem edge_strtDr (fuel : Nat) : All Edge (strtDr fuel) := by
  refine all_strtDr (fun _ _ => edge_of_act) ?_ ?_ fuel
  · exact (all_modify _).mpr fun _ => ⟨rfl, rfl⟩
  · exact edge_of_all (all_BitFieldSet (A := fun _ => True) (S := fun _ => True) trivial _)

/-- **No lost wake-up.**  Whenever control is at the head of the main loop and
INT is asserted, the counter is positive or an edge is still latched. -/
theorem wake_of_reachable {fuel : Nat} {w w' : World} (hw : AtReset w)
    (h : Reachable fuel w (.head, w')) (ha : w'.chip.asserted = true) :
    0 < w'.enc28j60intCounter ∨ w'.exti = true := by
  have hstart : Wake w := fun h => by
    simp [Chip.asserted, hw.eie] at h
  have hinv : Loop.Inv Env Any Wake (.run (strtDr fuel), w) :=
    triple_wake (edge_strtDr fuel) w hstart
  have hhead : Wake w' := Loop.sound wake_stable (triple_loopBody fuel) hinv h
  exact hhead ha

/-- After a start-up, a receive error takes INT down and latches an edge. -/
theorem wake_of_reachable_raise :
    ∃ w', Reachable 1 World.powerOn (.head, w') ∧ w'.chip.asserted = true ∧
      (0 < w'.enc28j60intCounter ∨ w'.exti = true) := by
  have hrun : (Res.run (strtDr 1) World.powerOn).map
      (fun r => { r.2.chip with eir := r.2.chip.eir ||| RXERIF }.asserted) = some true := by
    decide +kernel
  obtain ⟨⟨_, w₁⟩, hw₁, ha⟩ := Option.map_eq_some_iff.mp hrun
  have hboot : Reachable 1 World.powerOn (.head, w₁) := Loop.steps_of_run Env _ hw₁
  have hraise : Reachable 1 World.powerOn (.head, w₁.drive _) :=
    hboot.tail (.env (.chip (.raise RXERIF (by decide))))
  exact ⟨_, hraise, ha, wake_of_reachable atReset_powerOn hraise ha⟩

end Enc28j60
