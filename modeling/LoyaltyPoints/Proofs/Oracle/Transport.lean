import LoyaltyPoints.Proofs.Oracle.Attempts

/-! # Oracle: failures of the transport

    A connection can break, or the time run out, before the head of an answer is there or while the
    body of a success is being read. The first kind is followed by another attempt as long as there
    are retries left. The second kind is taken for a body that cannot be read: it ends the query,
    whatever the server would have answered next. So an order is answered through a series of
    failures exactly if none of them lies in a body. -/

namespace LoyaltyPoints

namespace Retry

variable {ε α : Type} {retryable : ε → Bool} {outcome : ℕ → Except ε α} {retries first : ℕ}
  {r : Run ε α}

/-- An attempt that was made, with retries left, is followed by another one if it was passing, and
    only then. -/
theorem Stops.goes_on_iff (h : Stops retries retryable outcome first r) {k : ℕ}
    (hmade : k ≤ r.retried.length) (hleft : first + k < retries) :
    k < r.retried.length ↔ Passing retryable (outcome (first + k)) := by
  constructor
  · exact h.passing k
  · intro hpassing
    by_contra hlast
    -- The run would end here without having used its retries, so the outcome would be final.
    obtain rfl : k = r.retried.length := by omega
    rcases h.stops with hused | hstops
    · omega
    · exact hstops hpassing

/-- A series of passing attempts that fits the retries is gone through. -/
theorem Stops.le_length (h : Stops retries retryable outcome first r) {n : ℕ}
    (hfits : first + n ≤ retries) (hpassing : ∀ k < n, Passing retryable (outcome (first + k))) :
    n ≤ r.retried.length := by
  by_contra hless
  apply lt_irrefl r.retried.length
  rw [h.goes_on_iff le_rfl (by omega)]
  exact hpassing _ (by omega)

end Retry

namespace Oracle

/-! ## Where an exchange fails -/

theorem isFinal_iff {status : ℕ} :
    isFinal status = true ↔ 100 ≤ status ∧ status ≤ 999 ∧ isInterim status = false := by
  simp [isFinal, and_assoc]

namespace Reply

/-- The connection breaks or the time runs out before the head of an answer is there. -/
def failsBeforeHead (r : Reply) : Bool :=
  r.manner = .close || r.manner = .stall || !isFinal r.status

/-- The connection breaks or the time runs out while the body of a success is being read. A success
    with status 204 has no body. -/
def failsInBody (r : Reply) : Bool :=
  !r.failsBeforeHead && decide (r.manner ≠ .whole) &&
    decide (200 ≤ r.status ∧ r.status < 300 ∧ r.status ≠ 204)

/-- An exchange that the transport fails in. -/
def failsInTransport (r : Reply) : Bool := r.failsBeforeHead || r.failsInBody

/-- A good answer, as a whole. -/
structure Answers (r : Reply) (a : Answer) : Prop where
  whole : r.manner = .whole
  status_eq : r.status = 200
  decoded : Answer.ofSymbols? (Text.symbols r.body) = some a

variable {r : Reply} (number url : String)

theorem passing_of_failsBeforeHead (h : r.failsBeforeHead = true) :
    Retry.Passing SystemError.isRetryable (r.outcome number url) := by
  have hsend : Retry.Passing SystemError.isRetryable
      (.error (sendFailure url) : Except SystemError Answer) := ⟨_, rfl, rfl⟩
  have htimeout : Retry.Passing SystemError.isRetryable
      (.error (.externalTimeout serviceName) : Except SystemError Answer) := ⟨_, rfl, rfl⟩
  simp only [failsBeforeHead, Bool.or_eq_true, decide_eq_true_eq, Bool.not_eq_true'] at h
  rcases h with (hmanner | hmanner) | hstatus
  · rwa [outcome_close number url hmanner]
  · rwa [outcome_stall number url hmanner]
  -- Without a status that ends the exchange there is no head, however the server goes on.
  by_cases hrange : r.status < 100 ∨ 999 < r.status
  · rw [outcome, if_pos hrange]
    split_ifs <;> assumption
  · have hinterim : isInterim r.status = true := by
      by_contra hother
      rw [isFinal_iff.mpr ⟨by omega, by omega, by simpa using hother⟩] at hstatus
      cases hstatus
    rw [outcome, if_neg hrange, if_pos hinterim]
    split_ifs <;> assumption

theorem outcome_of_failsInBody (h : r.failsInBody = true) :
    r.outcome number url = .error bodyFailure := by
  simp only [failsInBody, failsBeforeHead, Bool.and_eq_true, Bool.not_eq_true',
    Bool.or_eq_false_iff, Bool.not_eq_false', decide_eq_true_eq, decide_eq_false_iff_not] at h
  obtain ⟨⟨⟨⟨hclose, hstall⟩, hfinal⟩, hmanner⟩, hsuccess⟩ := h
  obtain ⟨hlow, hhigh, hinterim⟩ := isFinal_iff.mp hfinal
  rw [outcome, if_neg hclose, if_neg hstall, if_neg (by omega), if_neg (by simp [hinterim]),
    if_neg hsuccess.2.2, if_neg (by omega), if_pos hmanner]

theorem Answers.outcome_eq {a : Answer} (h : r.Answers a) : r.outcome number url = .ok a := by
  rw [outcome_whole number url h.whole (by rw [h.status_eq]; decide), h.status_eq, h.decoded]
  rfl

/-- Of the failures of the transport, those before the head are passing. -/
theorem passing_iff_failsBeforeHead (h : r.failsInTransport = true) :
    Retry.Passing SystemError.isRetryable (r.outcome number url) ↔ r.failsBeforeHead = true := by
  refine ⟨fun hpassing => ?_, passing_of_failsBeforeHead number url⟩
  rcases Bool.or_eq_true _ _ ▸ h with hhead | hbody
  · exact hhead
  · obtain ⟨e, he, hretryable⟩ := hpassing
    rw [outcome_of_failsInBody number url hbody] at he
    cases he
    cases hretryable

theorem outcome_ne_ok_of_failsInTransport (h : r.failsInTransport = true) (a : Answer) :
    r.outcome number url ≠ .ok a := by
  intro hok
  rcases Bool.or_eq_true _ _ ▸ h with hhead | hbody
  · obtain ⟨e, he, -⟩ := passing_of_failsBeforeHead number url hhead
    cases hok.symm.trans he
  · cases hok.symm.trans (outcome_of_failsInBody number url hbody)

end Reply

/-! ## Which failures are retried -/

section queries

variable {s : Server} {base number : String} {u : Url}

/-- A query that reaches a server is a series of attempts, one for each request. -/
theorem ask_stops (policy : RetryPolicy) (hurl : requestUrl base number = .ok u)
    (hserves : s.serves u = true) (used : ℕ) :
    Retry.Stops policy.maxRetries.toNat SystemError.isRetryable
        (fun k => (s.reply (used + k)).outcome number u.toText) 0
        (ask policy (some s) base used number).run ∧
      (ask policy (some s) base used number).requests.length =
        (ask policy (some s) base used number).run.retried.length + 1 := by
  have hreaches : (some s).filter (·.serves u) = some s :=
    Option.filter_eq_some_iff.mpr ⟨rfl, hserves⟩
  rw [ask, hurl]
  simp only [hreaches]
  exact ⟨Retry.run_stops policy _ _, List.length_replicate⟩

/-- A failure of the transport is followed by another attempt if it lies before the head, and only
    then; and a series of such failures that fits the retries leads to the answer behind it if none
    of them lies in a body, and only then. -/
theorem transport_retried_iff (policy : RetryPolicy) (hurl : requestUrl base number = .ok u)
    (hserves : s.serves u = true) (used : ℕ) :
    (∀ k, k < (ask policy (some s) base used number).requests.length →
      k < policy.maxRetries.toNat → (s.reply (used + k)).failsInTransport = true →
      (k + 1 < (ask policy (some s) base used number).requests.length ↔
        (s.reply (used + k)).failsBeforeHead = true)) ∧
    (∀ n a, n ≤ policy.maxRetries.toNat →
      (∀ k < n, (s.reply (used + k)).failsInTransport = true) → (s.reply (used + n)).Answers a →
      ((ask policy (some s) base used number).run.result = .ok a ↔
        ∀ k < n, (s.reply (used + k)).failsBeforeHead = true)) := by
  obtain ⟨hrun, hlength⟩ := ask_stops policy hurl hserves used
  rw [hlength]
  generalize (ask policy (some s) base used number).run = run at hrun
  have hpassing {k : ℕ} (h : (s.reply (used + k)).failsInTransport = true) :=
    Reply.passing_iff_failsBeforeHead number u.toText h
  refine ⟨fun k hmade hleft hfails => ?_, fun n a hfits hfails hgood => ?_⟩
  · have hmore := hrun.goes_on_iff (Nat.le_of_lt_succ hmade) (by omega)
    rw [Nat.zero_add, hpassing hfails] at hmore
    rw [← hmore]
    omega
  have hanswer := hgood.outcome_eq number u.toText
  have hresult := hrun.result
  rw [Nat.zero_add] at hresult
  constructor
  · intro hok k hk
    -- The answer came from a reply behind all the failures.
    have hbehind : n ≤ run.retried.length := by
      by_contra hless
      exact Reply.outcome_ne_ok_of_failsInTransport number u.toText (hfails _ (by omega)) a
        (hresult.symm.trans hok)
    have hretried := hrun.passing k (by omega)
    rw [Nat.zero_add] at hretried
    exact (hpassing (hfails k hk)).mp hretried
  · intro hhead
    have hthrough : n ≤ run.retried.length := by
      refine hrun.le_length (by omega) fun k hk => ?_
      rw [Nat.zero_add]
      exact (hpassing (hfails k hk)).mpr (hhead k hk)
    -- A good answer is not retried, so the run ends with it.
    have hlast : ¬ n < run.retried.length := by
      intro hmore
      obtain ⟨e, he, -⟩ := hrun.passing n hmore
      rw [Nat.zero_add, hanswer] at he
      cases he
    rw [hresult, show run.retried.length = n by omega, hanswer]

end queries

def orderBody : List UInt8 :=
  "\x7b\"order\":\"18\",\"status\":\"PROCESSED\"\x7d".toUTF8.toList

/-- A server whose first connection comes to nothing in the way given, and which then answers. -/
def brokenServer (manner : Manner) : Server where
  address := "oracle:8080"
  first := { manner }
  others := [{ body := orderBody }]

def brokenUrl : Url :=
  ⟨['h', 't', 't', 'p'], some "oracle".toList, some 8080, "/api/orders/18".toList, none, none⟩

theorem answers_brokenServer (manner : Manner) :
    ((brokenServer manner).reply 1).Answers ⟨"18", .processed, none⟩ := by
  have hbody : Answer.ofSymbols? (Text.symbols orderBody) = some ⟨"18", .processed, none⟩ := by
    decide +kernel
  exact ⟨rfl, rfl, hbody⟩

/-- Behind a connection that was closed without an answer the order is asked for again. -/
theorem transport_retried_iff_of_close :
    requestUrl "http://oracle:8080" "18" = .ok brokenUrl ∧
      (brokenServer .close).serves brokenUrl = true ∧
      ((brokenServer .close).reply 0).failsInTransport = true ∧
      ((brokenServer .close).reply 1).Answers ⟨"18", .processed, none⟩ ∧
      1 < (ask fivefold (some (brokenServer .close)) "http://oracle:8080" 0 "18").requests.length ∧
      (ask fivefold (some (brokenServer .close)) "http://oracle:8080" 0 "18").run.result =
        .ok ⟨"18", .processed, none⟩ := by
  have hurl : requestUrl "http://oracle:8080" "18" = .ok brokenUrl := by decide +kernel
  have hserves : (brokenServer .close).serves brokenUrl = true := by decide +kernel
  have hgood := answers_brokenServer .close
  obtain ⟨hretried, hanswered⟩ := transport_retried_iff fivefold hurl hserves 0
  have hfirst : ∀ k < 1, ((brokenServer .close).reply (0 + k)).failsInTransport = true := by decide
  have hhead : ∀ k < 1, ((brokenServer .close).reply (0 + k)).failsBeforeHead = true := by decide
  refine ⟨hurl, hserves, hfirst 0 one_pos, hgood, ?_, ?_⟩
  · exact (hretried 0 (by decide +kernel) (by decide) (hfirst 0 one_pos)).mpr (hhead 0 one_pos)
  · exact (hanswered 1 _ (by decide) hfirst hgood).mpr hhead

/-- A body that breaks off, or does not come to its end in time, is not asked for again, although
    there are retries left and the next reply is good. -/
theorem broken_body_not_retried :
    1 ≤ fivefold.maxRetries.toNat ∧
      ((brokenServer .cut).reply 0).failsInTransport = true ∧
      ((brokenServer .cut).reply 1).Answers ⟨"18", .processed, none⟩ ∧
      (ask fivefold (some (brokenServer .cut)) "http://oracle:8080" 0 "18").run.result =
        .error bodyFailure ∧
      (ask fivefold (some (brokenServer .cut)) "http://oracle:8080" 0 "18").requests =
        ["GET /api/orders/18"] ∧
      ((brokenServer .stallBody).reply 0).failsInTransport = true ∧
      ((brokenServer .stallBody).reply 1).Answers ⟨"18", .processed, none⟩ ∧
      (ask fivefold (some (brokenServer .stallBody)) "http://oracle:8080" 0 "18").run.result =
        .error bodyFailure ∧
      (ask fivefold (some (brokenServer .stallBody)) "http://oracle:8080" 0 "18").requests =
        ["GET /api/orders/18"] := by
  have hgood := answers_brokenServer
  refine ⟨by decide, by decide, hgood .cut, ?_, ?_, by decide, hgood .stallBody, ?_, ?_⟩
  all_goals decide +kernel

end Oracle

end LoyaltyPoints
