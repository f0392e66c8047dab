import Enc28j60.Mqtt.Client
import Mathlib.Data.List.ReduceOption

/-!
# Enc28j60.Mqtt.Ledger

An account of the requests: each one that was queued is waiting, has ended with a
call of its callback, or has been dropped with its connection, and it is exactly one
of these (`balance`).  The time a waiting request has left is what the timer has not
taken from it yet (`waiting`), so a request that times out does so when the timer
has counted six or seven times (`late`).
-/

namespace Enc28j60.Mqtt

open App (LwipErr)

variable {κ : Type}

/-- The requests that are waiting. -/
def tickets (rq : Requests (Ticket κ)) : List (Ticket κ) :=
  (rq.pending.map fun e => e.2.cb).reduceOption

/-- The requests that have ended. -/
def ended (calls : List (Call κ)) : List (Ticket κ) :=
  calls.filterMap fun
    | .request_cb r _ _ => some r
    | _ => none

@[simp] theorem ended_append (calls more : List (Call κ)) :
    ended (calls ++ more) = ended calls ++ ended more := by
  simp [ended]

@[simp] theorem ended_nil : ended ([] : List (Call κ)) = [] := rfl

structure Ledger (rq : Requests (Ticket κ)) (calls : List (Call κ)) (elapsed : Nat)
    (accepted dropped : List (Ticket κ)) : Prop where
  inv : rq.Inv
  waiting : ∀ e ∈ rq.pending, ∃ r, e.2.cb = some r ∧ r.asked_at ≤ elapsed ∧
    e.1 + 5 * (elapsed - r.asked_at) = 30
  balance : accepted.Perm (ended calls ++ tickets rq ++ dropped)
  late : ∀ r at_, Call.request_cb r .ERR_TIMEOUT at_ ∈ calls →
    at_ = r.asked_at + 6 ∨ at_ = r.asked_at + 7

def Client.Ledger (c : Client κ) : Prop :=
  Mqtt.Ledger c.requests c.calls c.elapsed c.accepted c.dropped

namespace Ledger

variable {rq rq' : Requests (Ticket κ)} {calls : List (Call κ)} {elapsed : Nat}
  {accepted dropped : List (Ticket κ)}

/-- Other callbacks do not count. -/
theorem record (h : Ledger rq calls elapsed accepted dropped) {more : List (Call κ)}
    (hmore : ∀ r err at_, Call.request_cb r err at_ ∉ more) :
    Ledger rq (calls ++ more) elapsed accepted dropped := by
  have hended : ended more = [] := by
    unfold ended
    rw [List.filterMap_eq_nil_iff]
    intro call hcall
    cases call with
    | request_cb r err at_ => exact absurd hcall (hmore r err at_)
    | connect_cb => rfl
    | pub_cb => rfl
    | data_cb => rfl
  refine ⟨h.inv, h.waiting, ?_, fun r at_ hmem => ?_⟩
  · rw [ended_append, hended, List.append_nil]
    exact h.balance
  · rw [List.mem_append] at hmem
    exact h.late r at_ (hmem.resolve_right (hmore r _ at_))

/-- Nothing shows of items that were created and deleted again. -/
theorem same (h : Ledger rq calls elapsed accepted dropped) (hinv : rq'.Inv)
    (hpending : rq'.pending = rq.pending) : Ledger rq' calls elapsed accepted dropped := by
  refine ⟨hinv, ?_, ?_, h.late⟩
  · rw [hpending]
    exact h.waiting
  · rw [tickets, hpending]
    exact h.balance

/-- A new request waits for as long as a request may. -/
theorem append (h : Ledger rq calls elapsed accepted dropped) {pkt_id : BitVec 16} {cb : Option κ}
    (hinv : rq'.Inv) (hpending : rq'.pending = rq.pending ++ [(30, ⟨pkt_id, some ⟨cb, elapsed⟩⟩)]) :
    Ledger rq' calls elapsed (accepted ++ [⟨cb, elapsed⟩]) dropped := by
  refine ⟨hinv, fun e he => ?_, ?_, h.late⟩
  · rw [hpending, List.mem_append, List.mem_singleton] at he
    rcases he with he | rfl
    · exact h.waiting e he
    · exact ⟨_, rfl, by simp⟩
  · have htickets : tickets rq' = tickets rq ++ [⟨cb, elapsed⟩] := by
      simp [tickets, hpending, List.reduceOption_append]
    rw [htickets]
    refine (h.balance.append_right _).trans ?_
    simp only [List.append_assoc]
    exact (List.perm_append_comm.append_left _).append_left _

/-- One request less in the queue. -/
theorem tickets_remove {t : Nat} {a : Requests.Asked (Ticket κ)}
    {before behind : List (Nat × Requests.Asked (Ticket κ))} {r : Ticket κ}
    (hpending : rq.pending = before ++ (t, a) :: behind) (ha : a.cb = some r)
    (hpending' : rq'.pending = before ++ behind) :
    (tickets rq).Perm (tickets rq' ++ [r]) := by
  simp only [tickets, hpending, hpending', List.map_append, List.map_cons, ha,
    List.reduceOption_append, List.reduceOption_cons_of_some, List.append_assoc]
  exact (List.perm_append_singleton r _).symm.append_left _

/-- A request that is taken out ends with the answer to it. -/
theorem finish (h : Ledger rq calls elapsed accepted dropped) (hinv : rq'.Inv)
    {t : Nat} {a : Requests.Asked (Ticket κ)}
    {before behind : List (Nat × Requests.Asked (Ticket κ))} {r : Ticket κ} {err : LwipErr}
    (hpending : rq.pending = before ++ (t, a) :: behind) (ha : a.cb = some r)
    (hpending' : rq'.pending = before ++ behind) (herr : err ≠ .ERR_TIMEOUT) :
    Ledger rq' (calls ++ [.request_cb r err elapsed]) elapsed accepted dropped := by
  refine ⟨hinv, fun e he => h.waiting e ?_, ?_, fun r' at_ hmem => ?_⟩
  · rw [hpending]
    rw [hpending', List.mem_append] at he
    simpa using he.imp_right Or.inr
  · refine h.balance.trans ?_
    simp only [ended_append, List.append_assoc]
    refine List.Perm.append_left _ ?_
    exact ((tickets_remove hpending ha hpending').trans List.perm_append_comm).append_right _
  · rw [List.mem_append, List.mem_singleton] at hmem
    rcases hmem with hmem | heq
    · exact h.late r' at_ hmem
    · cases heq
      exact absurd rfl herr

/-- Or it is dropped. -/
theorem lose (h : Ledger rq calls elapsed accepted dropped) (hinv : rq'.Inv)
    {t : Nat} {a : Requests.Asked (Ticket κ)}
    {before behind : List (Nat × Requests.Asked (Ticket κ))} {r : Ticket κ}
    (hpending : rq.pending = before ++ (t, a) :: behind) (ha : a.cb = some r)
    (hpending' : rq'.pending = before ++ behind) :
    Ledger rq' calls elapsed accepted (dropped ++ [r]) := by
  refine ⟨hinv, fun e he => h.waiting e ?_, ?_, h.late⟩
  · rw [hpending]
    rw [hpending', List.mem_append] at he
    simpa using he.imp_right Or.inr
  · refine h.balance.trans ?_
    simp only [List.append_assoc]
    refine List.Perm.append_left _ ?_
    refine ((tickets_remove hpending ha hpending').append_right dropped).trans ?_
    rw [List.append_assoc]
    exact List.perm_append_comm.append_left _

/-- All of them are dropped. -/
theorem clear (h : Ledger rq calls elapsed accepted dropped) (hinv : rq'.Inv)
    (hpending : rq'.pending = []) :
    Ledger rq' calls elapsed accepted (dropped ++ tickets rq) := by
  refine ⟨hinv, by simp [hpending], ?_, h.late⟩
  have hnone : tickets rq' = [] := by simp [tickets, hpending]
  rw [hnone, List.append_nil]
  refine h.balance.trans ?_
  rw [List.append_assoc]
  exact List.perm_append_comm.append_left _

/-- What times out has waited for six or seven counts of the timer. -/
theorem elapse (h : Ledger rq calls elapsed accepted dropped) (hinv : rq'.Inv)
    (hpending : rq'.pending = DeltaList.left 5 rq.pending) :
    Ledger rq' (calls ++ (Requests.timedOut (DeltaList.due 5 rq.pending)).map
      fun d => .request_cb d.1 d.2 (elapsed + 1)) (elapsed + 1) accepted dropped := by
  have hsorted : rq.pending.Pairwise fun e e' => e.1 ≤ e'.1 := DeltaList.sorted_times 0 _
  refine ⟨hinv, fun e he => ?_, ?_, fun r at_ hmem => ?_⟩
  · rw [hpending] at he
    obtain ⟨u, hu, hmem, heq⟩ := DeltaList.mem_left hsorted he
    obtain ⟨r, hr, hle, htime⟩ := h.waiting _ hmem
    refine ⟨r, hr, by omega, ?_⟩
    simp only at htime
    omega
  · have hsplit : tickets rq = ended ((Requests.timedOut (DeltaList.due 5 rq.pending)).map
        fun d => Call.request_cb d.1 d.2 (elapsed + 1)) ++ tickets rq' := by
      have hall := congrArg (fun l => (l.map Requests.Asked.cb).reduceOption)
        (DeltaList.due_append_left 5 rq.pending)
      simp only [List.map_append, List.reduceOption_append, List.map_map] at hall
      rw [tickets, tickets, hpending]
      refine hall.symm.trans (congrArg (· ++ _) ?_)
      induction DeltaList.due 5 rq.pending with
      | nil => rfl
      | cons a as ih =>
          rw [Requests.timedOut, List.flatMap_cons, List.map_append, ended_append,
            ← Requests.timedOut, ← ih]
          cases ha : a.cb <;> simp [ha, ended]
    rw [ended_append, List.append_assoc (ended calls), ← hsplit]
    exact h.balance
  · rw [List.mem_append] at hmem
    rcases hmem with hmem | hmem
    · exact h.late r at_ hmem
    · obtain ⟨d, hd, heq⟩ := List.mem_map.mp hmem
      obtain ⟨a, ha, hd⟩ := List.mem_flatMap.mp hd
      obtain ⟨r', hr', rfl⟩ := List.mem_map.mp hd
      obtain ⟨rfl, -, rfl⟩ := Call.request_cb.inj heq
      obtain ⟨u, hu, hmem⟩ := DeltaList.mem_due ha
      obtain ⟨r, hr, hle, htime⟩ := h.waiting _ hmem
      obtain rfl : r = r' := by
        rw [Option.mem_toList, hr] at hr'
        exact Option.some.inj hr'
      simp only at htime ⊢
      omega

end Ledger

end Enc28j60.Mqtt
