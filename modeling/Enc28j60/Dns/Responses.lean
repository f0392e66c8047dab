import Enc28j60.Dns.Lookups

/-!
# Enc28j60.Dns.Responses

Which messages end a request (`recv_ends`), and which make the client read behind the name
of an entry (`recv_outside_iff`).
-/

namespace Enc28j60.Dns

open App (LwipErr IpAddr)
open Mqtt (Chain pbuf_copy_partial)

variable {κ : Type} {d d' : Resolver κ}

/-! ## who ends a request -/

theorem dns_check_entry_cases (i : Idx) (d : Resolver κ) :
    (∃ e, Keeps i e d (dns_check_entry i d)) ∨
      ∃ e addr reason, Finishes i e addr reason d (dns_check_entry i d) := by
  have hsend {d₁ : Resolver κ} {e : Entry} (hk : Keeps i e d d₁) :
      (∃ e, Keeps i e d (dns_send i d₁).2) ∨
        ∃ e addr reason, Finishes i e addr reason d (dns_send i d₁).2 := by
    rcases dns_send_cases i d₁ with hkeeps | hfin
    · exact Or.inl ⟨_, hk.trans hkeeps⟩
    · exact Or.inr ⟨_, _, _, hk.finishes hfin⟩
  have hgive {d₁ : Resolver κ} {e : Entry} (hk : Keeps i e d d₁) (reason : Reason) :
      ∃ e addr reason', Finishes i e addr reason' d (giveUp i reason d₁) :=
    ⟨_, _, _, hk.finishes (giveUp_finishes ..)⟩
  unfold dns_check_entry
  dsimp only
  split
  · exact hsend ⟨rfl, rfl, rfl, rfl, rfl⟩
  · split
    · unfold retry
      dsimp only
      split
      · split
        · exact hsend ((set_keeps ..).trans (set_keeps ..))
        · exact Or.inr (hgive ((set_keeps ..).trans (set_keeps ..)) .timeout)
      · exact hsend ((set_keeps ..).trans (set_keeps ..))
    · exact Or.inl ⟨_, set_keeps ..⟩
  · repeat' split
    all_goals exact Or.inl ⟨_, set_keeps ..⟩
  · exact Or.inl ⟨_, Keeps.refl d i⟩

theorem receiveAnswers_cases (i : Idx) (hdr : List Byte) (p : Chain) (res_idx : BitVec 16)
    (d : Resolver κ) :
    (∃ e, Keeps i e d (receiveAnswers i hdr p res_idx d)) ∨
      ∃ e addr reason, Finishes i e addr reason d (receiveAnswers i hdr p res_idx d) := by
  unfold receiveAnswers
  dsimp only
  split
  · split
    · rcases dns_check_entry_cases i (d.set i { d.dns_table i with
          retries := DNS_MAX_RETRIES - 1, tmr := 1 }) with ⟨e, hk⟩ | ⟨e, addr, reason, hfin⟩
      · exact Or.inl ⟨e, (set_keeps ..).trans hk⟩
      · exact Or.inr ⟨e, addr, reason, (set_keeps ..).finishes hfin⟩
    · exact Or.inr ⟨_, _, _, giveUp_finishes ..⟩
  · split
    · exact Or.inl ⟨_, Keeps.refl d i⟩
    · obtain ⟨state, ttl', -, hfin⟩ := dns_correct_response_finishes (set_keeps ..) _
      exact Or.inr ⟨_, _, _, hfin⟩
    · exact Or.inr ⟨_, _, _, giveUp_finishes ..⟩

/-- The header of a message. -/
def header (p : Chain) : List Byte := pbuf_copy_partial p.bufs SIZEOF_DNS_HDR.toNat 0

/-- A message ends a request only if it comes from the server that the entry has asked, with
the ID of its query and a question that agrees with its name; it ends this request alone. -/
theorem recv_ends (h : Reachable d) {p : Chain} {addr : IpAddr}
    (hrecv : dns_recv p addr d = some d') (hends : d'.found ≠ d.found) :
    ∃ i ls bs f, (d.dns_table i).state = .ASKING ∧
      (d.dns_table i).txid = field16 (header p) 0 ∧
      addr = d.dns_servers (d.dns_table i).server_idx ∧
      Question (d.dns_table i).name p SIZEOF_DNS_HDR 0 ls bs ∧
      d.dns_requests i = some f.request ∧ d'.found = d.found ++ [f] := by
  unfold dns_recv at hrecv
  split at hrecv
  · cases hrecv
    exact absurd rfl hends
  dsimp only at hrecv
  split at hrecv
  · rename_i i hi
    obtain ⟨hasking, htxid⟩ := asking_state hi
    obtain ⟨r, hr, -⟩ := h.inv.request hasking
    rcases receive_cases hrecv with rfl | ⟨hserver, ls, bs, res_idx, hquestion, rfl⟩
    · exact absurd rfl hends
    rcases receiveAnswers_cases i (header p) p res_idx d with ⟨e, hk⟩ | ⟨e, a, reason, hfin⟩
    · exact absurd hk.found hends
    · have hfound := hfin.found
      rw [hr] at hfound
      exact ⟨i, ls, bs, _, hasking, htxid, hserver, hquestion, hr, hfound⟩
  · cases hrecv
    exact absurd rfl hends

theorem recv_ends_answer :
    ∃ i ls bs f, (asked.dns_table i).state = .ASKING ∧
      (asked.dns_table i).txid = field16 (header answer) 0 ∧
      0x0100000a = asked.dns_servers (asked.dns_table i).server_idx ∧
      Question (asked.dns_table i).name answer SIZEOF_DNS_HDR 0 ls bs ∧
      asked.dns_requests i = some f.request ∧ resolved.found = asked.found ++ [f] := by
  refine recv_ends asked_reachable recv_answer fun hsame => ?_
  have hlength : resolved.found.length ≠ asked.found.length := by decide +kernel
  exact hlength (congrArg List.length hsame)

/-- A message makes the client read behind the name of an entry if and only if it has the ID of
its query, comes from its server with one question, and has labels that agree with the whole
buffer and go on. -/
theorem recv_outside_iff (p : Chain) (addr : IpAddr) (d : Resolver κ) :
    dns_recv p addr d = none ↔
      SIZEOF_DNS_HDR.toNat + SIZEOF_DNS_QUERY.toNat ≤ p.tot_len.toNat ∧
        ∃ i, asking (field16 (header p) 0) d = some i ∧
          (header p).getD 2 0 &&& DNS_FLAG1_RESPONSE ≠ 0 ∧ field16 (header p) 4 = 1 ∧
          addr = d.dns_servers (d.dns_table i).server_idx ∧
          ∃ ls n l bs, Overrun (d.dns_table i).name p SIZEOF_DNS_HDR 0 ls n l bs := by
  constructor
  · intro h
    unfold dns_recv at h
    split at h
    · cases h
    rename_i hlong
    dsimp only at h
    split at h
    · rename_i i hi
      unfold receive at h
      dsimp only at h
      split at h
      · cases h
      rename_i hflag
      split at h
      · cases h
      rename_i hone
      split at h
      · cases h
      rename_i hserver
      split at h
      · repeat' split at h
        all_goals cases h
      · rename_i hret
        refine ⟨by omega, i, hi, hflag, not_not.mp hone, not_not.mp hserver, ?_⟩
        cases hcompare : dns_compare_name (d.dns_table i).name p SIZEOF_DNS_HDR with
        | next s => exact (dns_compare_name_ends _ _ _ _ hcompare).elim
        | ret r => exact absurd hcompare (hret r)
        | fault => exact (compare_outside_iff ..).mp hcompare
    · cases h
  · rintro ⟨hlong, i, hi, hflag, hone, hserver, hover⟩
    have hfault := (compare_outside_iff ..).mpr hover
    unfold header at hi hflag hone
    unfold dns_recv
    rw [if_neg (by omega)]
    dsimp only
    rw [hi]
    unfold receive
    dsimp only
    rw [if_neg hflag, if_neg (not_not.mpr hone), if_neg (not_not.mpr hserver), hfault]

/-- It goes on behind the 256 bytes of the name "a": a label of 191 bytes, and one of 65. -/
def overrun : Chain :=
  ⟨[[0, 1, 0x80, 0, 0, 1, 0, 0, 0, 0, 0, 0],
    191 :: 0x61 :: List.replicate 190 0, 65 :: List.replicate 65 0], by decide +kernel⟩

example : (dns_recv overrun 0x0100000a asked).isNone := by decide +kernel

end Enc28j60.Dns
