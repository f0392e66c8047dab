import Enc28j60.Mqtt.Outgoing
import Enc28j60.Mqtt.Parser

/-!
# Enc28j60.Mqtt.Safety

The parser of a client that has been used in any way, on any bytes a server sends.

No other call changes where the parser is in a message (`Leaves`), so each call of it
finds what the last one left (`Reachable.resumes`), and the results about the loop hold
in each reachable state.
-/

namespace Enc28j60.Mqtt

open App (Status MQTT_CONNECT_ACCEPTED)

variable {κ : Type} {c : Client κ} {p : Chain}

/-! ## between two parts of a message -/

theorem Resumes.congr {c c' : Client κ} (hc : Resumes c) (h : c'.parser = c.parser) :
    Resumes c' := by
  obtain ⟨hbuffer, hidx⟩ := Prod.mk.inj h
  cases hc with
  | header few front => exact .header (by rwa [hidx]) (by rwa [hbuffer, hidx])
  | body h header behind len left =>
      exact .body h (by rwa [hbuffer]) (by rwa [hidx]) (by rwa [hbuffer]) (by rwa [hbuffer, hidx])

/-- A call that leaves the parser alone, and may close the connection. -/
def Leaves (c c' : Client κ) : Prop :=
  c'.parser = c.parser ∧ (c'.conn_state = c.conn_state ∨ c'.conn_state = .TCP_DISCONNECTED)

theorem Leaves.trans {c c' c'' : Client κ} (h : Leaves c c') (h' : Leaves c' c'') :
    Leaves c c'' := by
  refine ⟨h'.1.trans h.1, ?_⟩
  rcases h'.2 with heq | hclosed
  · rw [heq]
    exact h.2
  · exact Or.inr hclosed

theorem submit_leaves (pkt_id : BitVec 16) (cb : Option κ) (remaining_length : BitVec 16)
    (p : Packet) (build : Ringbuf → Ringbuf) (c : Client κ) :
    Leaves c (submit pkt_id cb remaining_length p build c).2 := by
  unfold submit
  dsimp only
  split
  · exact ⟨rfl, Or.inl rfl⟩
  · split <;> exact ⟨rfl, Or.inl rfl⟩

theorem mqtt_publish_leaves (topic : List Byte) (payload : Payload) (payload_length : BitVec 16)
    (qos retain : Byte) (cb : Option κ) (c : Client κ) :
    Leaves c (mqtt_publish topic payload payload_length qos retain cb c).2 := by
  have hid : Leaves c (if 0 < qos then msg_generate_packet_id c else (0, c)).2 := by
    split <;> exact ⟨rfl, Or.inl rfl⟩
  unfold mqtt_publish
  split
  · exact ⟨rfl, Or.inl rfl⟩
  split
  · exact ⟨rfl, Or.inl rfl⟩
  dsimp only
  by_cases hlen : 0xFFFF < 2 + topic.length + payload_length.toNat + if 0 < qos then 2 else 0
  · rw [if_pos hlen]
    exact hid
  · rw [if_neg hlen]
    exact hid.trans (submit_leaves ..)

theorem mqtt_sub_unsub_leaves (topic : List Byte) (qos : Byte) (cb : Option κ) (sub : Bool)
    (c : Client κ) : Leaves c (mqtt_sub_unsub topic qos cb sub c).2 := by
  unfold mqtt_sub_unsub
  split
  · exact ⟨rfl, Or.inl rfl⟩
  dsimp only
  by_cases hlen : 0xFFFF < topic.length + 2 + 2 + if sub then 1 else 0
  · rw [if_pos hlen]
    exact ⟨rfl, Or.inl rfl⟩
  · rw [if_neg hlen]
    split
    · exact ⟨rfl, Or.inl rfl⟩
    · refine Leaves.trans ?_ (submit_leaves ..)
      exact ⟨rfl, Or.inl rfl⟩

theorem mqtt_close_leaves (reason : Status) (c : Client κ) : Leaves c (mqtt_close reason c) := by
  unfold mqtt_close
  dsimp only
  split
  · split <;> exact ⟨rfl, Or.inr rfl⟩
  · exact ⟨rfl, Or.inl rfl⟩

theorem mqtt_close_state (reason : Status) (c : Client κ) :
    (mqtt_close reason c).conn_state = .TCP_DISCONNECTED := by
  unfold mqtt_close
  dsimp only
  split
  · split <;> rfl
  · rename_i hstate
    exact not_not.mp hstate

theorem keepAlive_leaves (c : Client κ) : Leaves c (keepAlive c) := by
  unfold keepAlive
  dsimp only
  split <;> exact ⟨rfl, Or.inl rfl⟩

theorem mqtt_cyclic_timer_leaves (c : Client κ) : Leaves c (mqtt_cyclic_timer c) := by
  unfold mqtt_cyclic_timer
  split
  · dsimp only
    split
    · refine Leaves.trans ?_ (mqtt_close_leaves ..)
      exact ⟨rfl, Or.inl rfl⟩
    · exact ⟨rfl, Or.inl rfl⟩
  · dsimp only
    split
    · split
      · refine Leaves.trans ?_ ((mqtt_close_leaves ..).trans (keepAlive_leaves _))
        exact ⟨rfl, Or.inl rfl⟩
      · refine Leaves.trans ?_ (keepAlive_leaves _)
        exact ⟨rfl, Or.inl rfl⟩
    · exact ⟨rfl, Or.inl rfl⟩
  · exact ⟨rfl, Or.inl rfl⟩

theorem finishUnanswered_leaves (n : Nat) (c : Client κ) : Leaves c (finishUnanswered n c) := by
  induction n generalizing c with
  | zero => exact ⟨rfl, Or.inl rfl⟩
  | succ n ih =>
      unfold finishUnanswered
      dsimp only
      split
      · exact ⟨rfl, Or.inl rfl⟩
      · refine Leaves.trans ?_ (ih _)
        exact ⟨rfl, Or.inl rfl⟩

theorem mqtt_tcp_sent_cb_leaves (c : Client κ) : Leaves c (mqtt_tcp_sent_cb c) := by
  unfold mqtt_tcp_sent_cb
  split
  · exact finishUnanswered_leaves _ { c with cyclic_tick := 0, server_watchdog := 0 }
  · exact ⟨rfl, Or.inl rfl⟩

/-- A client without a connection to receive from. -/
theorem not_receiving (hstate : c.conn_state = .TCP_DISCONNECTED ∨
    c.conn_state = .TCP_CONNECTING) : ¬c.receiving := by
  rintro ⟨-, h⟩
  rcases hstate with hs | hs <;> rcases h with h | h <;> simp [hs] at h

theorem mqtt_client_connect_not_receiving (info : ConnectInfo) (connect_cb : Bool) (altcp : Altcp)
    (hstate : c.conn_state = .TCP_DISCONNECTED) :
    ¬(mqtt_client_connect info connect_cb altcp c).2.receiving := by
  apply not_receiving
  unfold mqtt_client_connect
  rw [if_neg (not_not.mpr hstate)]
  dsimp only
  split
  · exact Or.inl rfl
  repeat' split
  all_goals first | exact Or.inl rfl | exact Or.inr rfl

/-- Where the parser is in a message, whatever else happens between two parts of it. -/
theorem step_resumes {c c' : Client κ} (hgood : Good c) (h : c.receiving → Resumes c)
    (hs : Step c c') (hc : c'.receiving) : Resumes c' := by
  have hleaves : Leaves c c' → Resumes c' := fun hl => by
    have hconnected : c'.conn_state ≠ .TCP_DISCONNECTED := by
      rcases hc.2 with hstate | hstate <;> simp [hstate]
    have hsame := hl.2.resolve_right hconnected
    have hconn := (hgood.live (by rwa [← hsame])).1
    exact (h ⟨hconn, by rw [← hsame]; exact hc.2⟩).congr hl.1
  cases hs with
  | publish => exact hleaves (mqtt_publish_leaves ..)
  | sub_unsub => exact hleaves (mqtt_sub_unsub_leaves ..)
  | set_inpub_callback => exact hleaves ⟨rfl, Or.inl rfl⟩
  | connect info connect_cb altcp =>
      by_cases hstate : c.conn_state = .TCP_DISCONNECTED
      · exact absurd hc (mqtt_client_connect_not_receiving info connect_cb altcp hstate)
      · refine hleaves ?_
        unfold mqtt_client_connect
        rw [if_pos hstate]
        exact ⟨rfl, Or.inl rfl⟩
  | disconnect =>
      refine hleaves ?_
      unfold mqtt_disconnect
      split
      · refine Leaves.trans ?_ (mqtt_close_leaves ..)
        exact ⟨rfl, Or.inr rfl⟩
      · exact ⟨rfl, Or.inl rfl⟩
  | timer => exact hleaves (mqtt_cyclic_timer_leaves c)
  | connected => exact Resumes.start rfl
  | recv hr p hwnd res hres =>
      by_cases haccepted : res.1 = MQTT_CONNECT_ACCEPTED
      · refine ((h hr).of_returns hwnd hres haccepted).congr ?_
        unfold afterParse
        rw [if_neg (not_not.mpr haccepted)]
        dsimp only
        split <;> rfl
      · refine absurd hc (not_receiving (Or.inl ?_))
        have hclosed := mqtt_close_state res.1 res.2
        unfold afterParse
        rw [if_pos haccepted]
        dsimp only
        split <;> exact hclosed
  | fin => exact hleaves (mqtt_close_leaves ..)
  | sent => exact hleaves (mqtt_tcp_sent_cb_leaves c)
  | poll =>
      refine hleaves ?_
      unfold mqtt_tcp_poll_cb
      split <;> exact ⟨rfl, Or.inl rfl⟩
  | err =>
      refine hleaves ?_
      refine Leaves.trans ?_ (mqtt_close_leaves ..)
      exact ⟨rfl, Or.inl rfl⟩
  | net => exact hleaves ⟨rfl, Or.inl rfl⟩

theorem Reachable.resumes (h : Reachable c) : c.receiving → Resumes c := by
  induction h with
  | new tcp => exact fun hc => absurd hc (not_receiving (Or.inl rfl))
  | step hreach hs ih => exact step_resumes hreach.good ih hs

/-! ## the parser of a client in use -/

/-- What comes in one pbuf is parsed to its end, or to a sixth length byte. -/
theorem parse_contiguous (h : Reachable c) (hc : c.receiving) (hwnd : p.bytes.length ≤ TCP_WND)
    (hone : p.len = p.tot_len) :
    (∃ res, mqtt_parse_incoming p c res) ∨
      ∃ s, Machine.Reaches (parseRound p) { client := c } s ∧ SixthLengthByte p s := by
  rcases (h.resumes hc).outcome hwnd with hreturns | ⟨s, -, hstuck⟩ | hsix
  · exact Or.inl hreturns
  · have hbehind := hstuck.behind
    rw [hone, BitVec.lt_def] at hbehind
    omega
  · exact Or.inr hsix

theorem parse_contiguous_awaiting :
    (∃ res, mqtt_parse_incoming connack awaiting res) ∨
      ∃ s, Machine.Reaches (parseRound connack) { client := awaiting } s ∧
        SixthLengthByte connack s :=
  parse_contiguous awaiting_spec.1 awaiting_spec.2 (by decide) (by decide)

end Enc28j60.Mqtt
