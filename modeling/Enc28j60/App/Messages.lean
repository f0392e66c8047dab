import Enc28j60.App.Runs
import Mathlib.Tactic.Ring

/-!
# Enc28j60.App.Messages

The byte count of incoming messages.

`rx_bytes` outlives a message and a connection; only `MQTT_DATA_FLAG_LAST` clears
it.  What it holds is the bytes of the current message and, below them, those of
the messages that a lost connection has cut off since (`Counting.total`), and
those are the whole error of the next report.
-/

namespace Enc28j60.App

/-! ## what is asked for -/

/-- No message is partially received. -/
def Idle (s : App) : Prop := s.client.conn = false ∨ s.client.remaining = none

/-- Each report is the announced length, and the count is 0 between messages. -/
structure Counted (s : App) : Prop where
  reports : ∀ r ∈ s.incoming.reports, ∀ tot, r.tot_len = some tot → r.rx_bytes = tot
  idle : Idle s → s.incoming.rx_bytes = 0

/-! ## one message -/

/-- A report is off by the bytes that were cut off. -/
def Report.Exact (r : Report) : Prop :=
  ∀ tot, r.tot_len = some tot → (r.rx_bytes = tot ↔ r.cut % 2 ^ 32 = 0)

/-- The count, with `rest` still to come of the current message. -/
structure Counting (m : Incoming) (rest : Option (BitVec 32)) : Prop where
  total : m.rx_bytes = BitVec.ofNat 32 (m.cut + m.got)
  progress : ∀ tot, m.announced = some tot →
    ∃ left, rest = some left ∧ tot = BitVec.ofNat 32 m.got + left
  between : rest = none → m.got = 0
  reports : ∀ r ∈ m.reports, r.Exact

/-- Nothing has been passed on of the current message. -/
def Untouched (m : Incoming) : Prop := m.got = 0 ∧ m.announced = none

theorem ofNat_eq_zero_iff (n : Nat) : BitVec.ofNat 32 n = 0 ↔ n % 2 ^ 32 = 0 := by
  rw [← BitVec.toNat_inj, BitVec.toNat_ofNat]
  rfl

theorem setWidth_eq_ofNat (len : BitVec 16) : len.setWidth 32 = BitVec.ofNat 32 len.toNat := by
  rw [← BitVec.toNat_inj, BitVec.toNat_setWidth, BitVec.toNat_ofNat]

namespace Counting

variable {m : Incoming} {rest rest' : Option (BitVec 32)} {left : BitVec 32}

/-- A message of which nothing is passed on may go on and end. -/
theorem skip (h : Counting m rest) (hm : Untouched m) : Counting m rest' where
  total := h.total
  progress tot htot := by
    rw [hm.2] at htot
    cases htot
  between _ := hm.1
  reports := h.reports

theorem untouched (h : Counting m none) : Untouched m := by
  refine ⟨h.between rfl, ?_⟩
  cases htot : m.announced with
  | none => rfl
  | some tot =>
      obtain ⟨left, hleft, _⟩ := h.progress tot htot
      cases hleft

/-- The announcement: the whole message is still to come. -/
theorem announce (h : Counting m none) (tot_len : BitVec 32) :
    Counting (publishIncoming tot_len m) (some tot_len) where
  total := h.total
  progress tot htot := by
    obtain rfl : tot_len = tot := Option.some.inj htot
    have hgot : (publishIncoming tot_len m).got = 0 := h.between rfl
    exact ⟨tot_len, rfl, by rw [hgot, BitVec.zero_add]⟩
  between := nofun
  reports := h.reports

/-- The sum after one more fragment. -/
theorem total_add (h : Counting m rest) (len : BitVec 16) :
    m.rx_bytes + len.setWidth 32 = BitVec.ofNat 32 (m.cut + (m.got + len.toNat)) := by
  rw [h.total, setWidth_eq_ofNat, ← BitVec.ofNat_add, Nat.add_assoc]

/-- A fragment that is not the last. -/
theorem more (h : Counting m (some left)) (len : BitVec 16) :
    Counting (mqtt_data_cb len false m) (some (left - len.setWidth 32)) where
  total := h.total_add len
  progress tot htot := by
    obtain ⟨_, hleft, rfl⟩ := h.progress tot htot
    obtain rfl := Option.some.inj hleft
    refine ⟨_, rfl, ?_⟩
    show _ = BitVec.ofNat 32 (m.got + len.toNat) + _
    rw [BitVec.ofNat_add, setWidth_eq_ofNat]
    ring
  between := nofun
  reports := h.reports

/-- The last fragment. -/
theorem last (h : Counting m (some left)) {len : BitVec 16} (hlast : left = len.setWidth 32) :
    Counting (mqtt_data_cb len true m) none where
  total := rfl
  progress _ := nofun
  between _ := rfl
  reports r hr := by
    rcases List.mem_append.mp hr with hold | hnew
    · exact h.reports r hold
    · rw [List.mem_singleton.mp hnew]
      intro tot htot
      obtain ⟨_, hleft, rfl⟩ := h.progress tot htot
      obtain rfl := Option.some.inj hleft
      show m.rx_bytes + len.setWidth 32 = _ ↔ m.cut % 2 ^ 32 = 0
      rw [h.total, ← ofNat_eq_zero_iff, BitVec.ofNat_add, hlast, BitVec.add_assoc,
        BitVec.add_left_eq_self]
      exact .rfl

/-- The payload in one part of a message. -/
theorem part {len : BitVec 16} (h : Counting m (some (left + len.setWidth 32))) :
    Counting (passOn len left m) (if left = 0 then none else some left) := by
  unfold passOn
  by_cases hleft : left = 0
  · rw [if_pos (.inr hleft), if_pos hleft, decide_eq_true hleft]
    exact h.last (by rw [hleft, zero_add])
  · rw [if_neg hleft, decide_eq_false hleft]
    by_cases hlen : 0 < len
    · rw [if_pos (.inl hlen)]
      have hmore := h.more len
      rwa [BitVec.add_sub_cancel] at hmore
    · rw [if_neg (not_or.mpr ⟨hlen, hleft⟩)]
      have hzero : len = 0 := by
        rw [BitVec.lt_def, Nat.not_lt] at hlen
        exact BitVec.eq_of_toNat_eq (Nat.le_zero.mp hlen)
      rw [hzero] at h
      simpa using h

end Counting

/-! ## the connection under it -/

/-- The count of a state, with what the connection says about it. -/
structure Receipt (s : App) : Prop where
  counting : Counting s.incoming s.client.remaining
  /-- Without the callbacks nothing is passed on. -/
  unset : s.client.callbacks = false → Untouched s.incoming
  lost : s.client.conn = false → Untouched s.incoming
  offline : s.client.conn_state = .TCP_DISCONNECTED → s.client.conn = false
  connecting : s.client.conn_state = .TCP_CONNECTING → s.client.remaining = none

/-- Nothing has changed but what the count does not depend on. -/
theorem Receipt.same {s s' : App} (hs : Receipt s) (hclient : s'.client = s.client)
    (hincoming : s'.incoming = s.incoming) : Receipt s' := by
  obtain ⟨hcount, hunset, hlost, hoffline, hconnecting⟩ := hs
  rw [← hclient] at hcount hunset hlost hoffline hconnecting
  rw [← hincoming] at hcount hunset hlost
  exact ⟨hcount, hunset, hlost, hoffline, hconnecting⟩

/-- Between two connections, and until the first part of a message. -/
theorem Receipt.untouched {s : App} (hs : Receipt s) (hidle : Idle s) : Untouched s.incoming := by
  rcases hidle with hconn | hnone
  · exact hs.lost hconn
  · have hcount := hs.counting
    rw [hnone] at hcount
    exact hcount.untouched

/-- A part of a message has been parsed. -/
theorem receipt_received {s : App} {m : Incoming} {len : BitVec 16} {left : BitVec 32}
    (hs : Receipt s) (hrecv : receiving s) (hset : s.client.callbacks = true)
    (hcount : Counting m (some (left + len.setWidth 32))) :
    Receipt (received len left { s with incoming := m }) := by
  obtain ⟨hconn, hstate⟩ := hrecv
  unfold received
  dsimp only
  rw [if_pos hset]
  refine ⟨hcount.part, fun h => ?_, fun h => ?_, hs.offline, fun h => ?_⟩
  · exact Bool.noConfusion (h.symm.trans hset)
  · exact Bool.noConfusion (h.symm.trans hconn)
  · rcases hstate with h' | h' <;> rw [h'] at h <;> cases h

/-- A part of a message has been parsed, and there is no callback to pass it to. -/
theorem receipt_unset {s : App} {len : BitVec 16} {left : BitVec 32}
    (hs : Receipt s) (hrecv : receiving s) (hset : s.client.callbacks = false) :
    Receipt (received len left s) := by
  have hnone := hs.unset hset
  unfold received
  rw [hset]
  refine ⟨hs.counting.skip hnone, fun _ => hnone, hs.lost, hs.offline, fun h => ?_⟩
  rcases hrecv.2 with h' | h' <;> rw [h'] at h <;> cases h

theorem receipt_published {s : App} (len : BitVec 16) (left : BitVec 32) (hs : Receipt s)
    (hrecv : receiving s) (hnone : s.client.remaining = none) :
    Receipt (received len left (announce (left + len.setWidth 32) s)) := by
  unfold announce
  cases hset : s.client.callbacks with
  | false => exact receipt_unset hs hrecv hset
  | true =>
      have hcount := hs.counting
      rw [hnone] at hcount
      exact receipt_received hs hrecv hset (hcount.announce _)

theorem receipt_continued {s : App} (len : BitVec 16) (left : BitVec 32) (hs : Receipt s)
    (hrecv : receiving s) (hleft : s.client.remaining = some left) :
    Receipt (received len (left - len.setWidth 32) s) := by
  cases hset : s.client.callbacks with
  | false => exact receipt_unset hs hrecv hset
  | true =>
      have hcount := hs.counting
      rw [hleft, ← BitVec.sub_add_cancel left (len.setWidth 32)] at hcount
      exact receipt_received hs hrecv hset hcount

theorem receipt_closed (reason : Status) {s : App} (hs : Receipt s) :
    Receipt (mqtt_close reason s) := by
  have htotal : s.incoming.rx_bytes = BitVec.ofNat 32 (s.incoming.cut + s.incoming.got + 0) :=
    hs.counting.total
  rw [mqtt_close_eq]
  exact ⟨⟨htotal, nofun, fun _ => rfl, hs.counting.reports⟩, fun _ => ⟨rfl, rfl⟩,
    fun _ => ⟨rfl, rfl⟩, fun _ => rfl, nofun⟩

theorem receipt_connect {s : App} (hs : Receipt s) : Receipt (connect s) := by
  suffices h : Receipt (core (connect s)) from
    ⟨h.counting, h.unset, h.lost, h.offline, h.connecting⟩
  rcases connect_cases s with ⟨_, h⟩ | ⟨hst, h⟩ | ⟨hst, h⟩ <;> rw [h]
  · exact ⟨hs.counting, hs.unset, hs.lost, hs.offline, hs.connecting⟩
  · have hnone := hs.lost (hs.offline hst)
    exact ⟨hs.counting.skip hnone, fun _ => hnone, fun _ => hnone, fun _ => rfl, nofun⟩
  · have hnone := hs.lost (hs.offline hst)
    exact ⟨hs.counting.skip hnone, fun _ => hnone, nofun, nofun, fun _ => rfl⟩

theorem receipt_connected {s : App} (hs : Receipt s)
    (hst : s.client.conn_state = .TCP_CONNECTING) : Receipt (mqtt_tcp_connect_cb s) := by
  have hcount := hs.counting
  rw [hs.connecting hst] at hcount
  exact ⟨hcount, hs.unset, hs.lost, nofun, nofun⟩

theorem quiet_receipt : Quiet Receipt where
  core s := ⟨fun h => ⟨h.counting, h.unset, h.lost, h.offline, h.connecting⟩,
    fun h => ⟨h.counting, h.unset, h.lost, h.offline, h.connecting⟩⟩
  start _ _ _ := ⟨⟨rfl, nofun, fun _ => rfl, fun _ h => absurd h List.not_mem_nil⟩,
    fun _ => ⟨rfl, rfl⟩, fun _ => ⟨rfl, rfl⟩, fun _ => rfl, nofun⟩
  answered ipaddr s hs := by
    unfold dns_call_found ipObtained
    split
    · split
      · cases ipaddr with
        | none => exact hs.same rfl rfl
        | some ip => exact hs.same rfl rfl
      · exact hs.same rfl rfl
    · exact hs
  closed reason _ hs _ := receipt_closed reason hs
  accepted s hs _ := by
    rw [accepted_eq]
    exact ⟨hs.counting, hs.unset, hs.lost, nofun, nofun⟩
  published len left _ hs hrecv hnone := receipt_published len left hs hrecv hnone
  continued len left _ hs hrecv hleft := receipt_continued len left hs hrecv hleft
  connected _ hs hst := receipt_connected hs hst
  startUp s hs _ := by
    unfold startUp
    split
    · exact hs.1.same rfl rfl
    · exact hs.1
  connect _ hs _ := receipt_connect hs.1
  publish _ hs _ := hs.1.same rfl rfl
  subscribe s hs _ := by
    unfold subscribe
    split
    · exact ⟨hs.1.counting, nofun, hs.1.lost, hs.1.offline, hs.1.connecting⟩
    · exact hs.1

/-! ## the result -/

/-- In every state the firmware reaches, the count is right exactly if no bytes
of messages cut off by a lost connection are left in it: not when a message was
reported, and not now, between two messages. -/
theorem counted_iff {pool : Nat} {c : Ctl App} {s : App} (h : Reachable pool (c, s)) :
    Counted s ↔
      (∀ r ∈ s.incoming.reports, r.tot_len ≠ none → r.cut % 2 ^ 32 = 0) ∧
        (Idle s → s.incoming.cut % 2 ^ 32 = 0) := by
  have hs : Receipt s := quiet_receipt.holds h
  have hidle : Idle s → (s.incoming.rx_bytes = 0 ↔ s.incoming.cut % 2 ^ 32 = 0) := fun hi => by
    rw [hs.counting.total, (hs.untouched hi).1]
    exact ofNat_eq_zero_iff s.incoming.cut
  constructor
  · intro hc
    refine ⟨fun r hr hne => ?_, fun hi => (hidle hi).mp (hc.idle hi)⟩
    obtain ⟨tot, htot⟩ := Option.ne_none_iff_exists'.mp hne
    exact (hs.counting.reports r hr tot htot).mp (hc.reports r hr tot htot)
  · rintro ⟨hreports, hcut⟩
    refine ⟨fun r hr tot htot => ?_, fun hi => (hidle hi).mpr (hcut hi)⟩
    exact (hs.counting.reports r hr tot htot).mpr (hreports r hr (by rw [htot]; nofun))

/-- A message in three parts, none of them lost. -/
theorem counted_fragments :
    ∃ s, Reachable 6 (.head, s) ∧ s.incoming.reports = [⟨some 300, 300, 0⟩] ∧ Counted s := by
  obtain ⟨s, hs, hφ⟩ := exists_of_play
    (φ := fun s => s.incoming.reports = [⟨some 300, 300, 0⟩] ∧ s.incoming.cut = 0)
    10 6 0x20018000
    (toConnecting ++ toSubscribed ++
      [.net { packets := [.tcp (.recv [.publish 100 200, .payload 110]),
        .tcp (.recv [.payload 90])] }, .round])
    (by decide +kernel)
  obtain ⟨hreports, hcut⟩ := of_decide_eq_true hφ
  refine ⟨s, hs, hreports, (counted_iff hs).mpr ⟨fun r hr _ => ?_, fun _ => ?_⟩⟩
  · rw [hreports] at hr
    rw [List.mem_singleton.mp hr]
    exact Nat.zero_mod _
  · rw [hcut]
    exact Nat.zero_mod _

/-- The connection is lost after 100 of 300 bytes; on the next one a message of
50 bytes is reported with 150. -/
theorem not_counted_lost :
    ∃ s, Reachable 6 (.head, s) ∧ s.incoming.reports = [⟨some 50, 150, 100⟩] ∧ ¬Counted s := by
  obtain ⟨s, hs, hφ⟩ := exists_of_play
    (φ := fun s => s.incoming.reports = [⟨some 50, 150, 100⟩])
    10 6 0x20018000
    (toConnecting ++ toSubscribed ++
      [.net { packets := [.tcp (.recv [.publish 100 200]), .tcp .fin] }, .round] ++
      toAttempt ++ toSubscribed ++
      [.net { packets := [.tcp (.recv [.publish 50 0])] }, .round])
    (by decide +kernel)
  have hreports := of_decide_eq_true hφ
  refine ⟨s, hs, hreports, fun hc => ?_⟩
  have hreport := hc.reports ⟨some 50, 150, 100⟩ (by rw [hreports]; exact List.mem_singleton_self _)
  exact absurd (hreport 50 rfl) (by decide)

end Enc28j60.App
