import LoyaltyPoints.Proofs.Oracle.Address

/-! # Oracle: attempts and their outcome

    An order is asked for until an answer is not passing, or the retries are used up. What the last
    reply says is the outcome. The next order is asked for from the reply behind it. -/

namespace LoyaltyPoints

/-! ## Retries -/

namespace Retry

variable {ε α : Type} {policy : RetryPolicy} {retryable : ε → Bool} {outcome : ℕ → Except ε α}

/-- An outcome that is followed by another attempt, if there are any left. -/
def Passing (retryable : ε → Bool) (r : Except ε α) : Prop :=
  ∃ e, r = .error e ∧ retryable e = true

/-- Attempts from number `first` on: all but the last were passing, and the last decides. -/
structure Stops (retries : ℕ) (retryable : ε → Bool) (outcome : ℕ → Except ε α) (first : ℕ)
    (r : Run ε α) : Prop where
  passing : ∀ k < r.retried.length, Passing retryable (outcome (first + k))
  result : r.result = outcome (first + r.retried.length)
  bounded : first + r.retried.length ≤ retries
  stops : first + r.retried.length = retries ∨
    ¬ Passing retryable (outcome (first + r.retried.length))

/-- An attempt that is the last. -/
theorem stops_of_last {retries first : ℕ} {r : Except ε α} (houtcome : outcome first = r)
    (hle : first ≤ retries) (hstops : first = retries ∨ ¬ Passing retryable r) :
    Stops retries retryable outcome first ⟨[], r⟩ where
  passing := nofun
  result := houtcome.symm
  bounded := hle
  stops := by rw [← houtcome] at hstops; exact hstops

/-- An attempt that is followed by others. -/
theorem Stops.cons {retries first : ℕ} {r : Run ε α} {e : ε} {wait : Duration}
    (h : Stops retries retryable outcome (first + 1) r) (houtcome : outcome first = .error e)
    (hretryable : retryable e = true) :
    Stops retries retryable outcome first ⟨(e, wait) :: r.retried, r.result⟩ := by
  have hshift : first + (r.retried.length + 1) = first + 1 + r.retried.length := by omega
  refine ⟨fun k hk => ?_, ?_, ?_, ?_⟩
  · cases k with
    | zero => exact ⟨e, houtcome, hretryable⟩
    | succ k =>
      have hpassing := h.passing k (Nat.lt_of_succ_lt_succ hk)
      rwa [Nat.add_right_comm] at hpassing
  · rw [List.length_cons, hshift]
    exact h.result
  · rw [List.length_cons, hshift]
    exact h.bounded
  · rw [List.length_cons, hshift]
    exact h.stops

theorem runFrom_stops (retry : UInt32) (hle : retry ≤ policy.maxRetries) :
    Stops policy.maxRetries.toNat retryable outcome retry.toNat
      (runFrom policy retryable outcome retry) := by
  rw [UInt32.le_iff_toNat_le] at hle
  fun_induction runFrom policy retryable outcome retry with
  | case1 retry x hok => exact stops_of_last hok hle (.inr nofun)
  | case2 retry e herror hretry rest ih =>
    have hlt := UInt32.lt_iff_toNat_lt.mp hretry.2
    -- The number of retries fits its type, so that counting on does not overflow.
    have hnext : (retry + 1).toNat = retry.toNat + 1 := by
      have hmax := policy.maxRetries.toNat_lt
      rw [UInt32.toNat_add]
      simp only [UInt32.reduceToNat]
      omega
    rw [hnext] at ih
    exact (ih hlt).cons herror hretry.1
  | case3 retry e herror hstop =>
    refine stops_of_last herror hle ?_
    by_cases hlt : retry < policy.maxRetries
    · refine .inr ?_
      rintro ⟨e', he, hretryable⟩
      cases he
      exact hstop ⟨hretryable, hlt⟩
    · rw [UInt32.lt_iff_toNat_lt] at hlt
      exact .inl (by omega)

theorem run_stops (policy : RetryPolicy) (retryable : ε → Bool) (outcome : ℕ → Except ε α) :
    Stops policy.maxRetries.toNat retryable outcome 0 (run policy retryable outcome) :=
  runFrom_stops 0 (UInt32.le_iff_toNat_le.mpr (Nat.zero_le _))

end Retry

namespace Oracle

/-! ## Replies -/

/-- Whether a status ends an exchange. -/
def isFinal (status : ℕ) : Bool := 100 ≤ status && status ≤ 999 && !isInterim status

/-- A reply that arrives as a whole or not at all. -/
def Reply.IsClear (r : Reply) : Prop :=
  r.manner = .close ∨ r.manner = .stall ∨ (r.manner = .whole ∧ isFinal r.status = true)

/-- Whether a reply is worth another attempt. -/
def Reply.isPassing (r : Reply) : Bool :=
  r.manner = .close || r.manner = .stall || r.status = 429 || 500 ≤ r.status

/-- What a reply decides about an order. -/
structure Reply.Decides (r : Reply) (number : String) (outcome : Except SystemError Answer) :
    Prop where
  closed : r.manner = .close → ∃ message, outcome = .error (.external serviceName message)
  stalled : r.manner = .stall → outcome = .error (.externalTimeout serviceName)
  unregistered : r.manner = .whole → r.status = 204 → outcome = .ok ⟨number, .unknown, none⟩
  decoded : r.manner = .whole → 200 ≤ r.status → r.status < 300 → r.status ≠ 204 →
    ∀ a, Answer.ofSymbols? (Text.symbols r.body) = some a → outcome = .ok a
  undecoded : r.manner = .whole → 200 ≤ r.status → r.status < 300 → r.status ≠ 204 →
    Answer.ofSymbols? (Text.symbols r.body) = none → ∃ message, outcome = .error (.internal message)
  refused : r.manner = .whole → (r.status < 200 ∨ 300 ≤ r.status) →
    outcome = .error (.externalStatus serviceName r.status)

namespace Reply

variable {r : Reply} (number url : String)

theorem outcome_close (h : r.manner = .close) :
    r.outcome number url = .error (sendFailure url) := by
  rw [outcome, if_pos h]

theorem outcome_stall (h : r.manner = .stall) :
    r.outcome number url = .error (.externalTimeout serviceName) := by
  rw [outcome, if_neg (by simp [h]), if_pos h]

/-- A reply that arrives is judged by its status, and only then by its body. -/
theorem outcome_whole (h : r.manner = .whole) (hfinal : isFinal r.status = true) :
    r.outcome number url =
      if r.status = 204 then .ok (.unregistered number)
      else if r.status < 200 ∨ 300 ≤ r.status then .error (.externalStatus serviceName r.status)
      else (Answer.ofSymbols? (Text.symbols r.body)).elim (.error bodyFailure) .ok := by
  simp only [isFinal, Bool.and_eq_true, decide_eq_true_eq, Bool.not_eq_true'] at hfinal
  rw [outcome, if_neg (by simp [h]), if_neg (by simp [h]), if_neg (by omega),
    if_neg (by simp [hfinal.2])]
  by_cases hnone : r.status = 204
  · rw [if_pos hnone, if_pos hnone]
  rw [if_neg hnone, if_neg hnone]
  by_cases hother : r.status < 200 ∨ 300 ≤ r.status
  · rw [if_pos hother, if_pos hother]
  rw [if_neg hother, if_neg hother, if_neg (by simp [h])]
  cases Answer.ofSymbols? (Text.symbols r.body) <;> rfl

theorem IsClear.decides (h : r.IsClear) : r.Decides number (r.outcome number url) := by
  rcases h with hmanner | hmanner | ⟨hmanner, hfinal⟩
  · rw [outcome_close number url hmanner]
    constructor <;> simp [hmanner, sendFailure]
  · rw [outcome_stall number url hmanner]
    constructor <;> simp [hmanner]
  · rw [outcome_whole number url hmanner hfinal]
    constructor
    · simp [hmanner]
    · simp [hmanner]
    · intro _ hnone
      rw [if_pos hnone]
      rfl
    · intro _ hlow hhigh hsome a ha
      rw [if_neg hsome, if_neg (by omega), ha]
      rfl
    · intro _ hlow hhigh hsome hbody
      rw [if_neg hsome, if_neg (by omega), hbody]
      exact ⟨_, rfl⟩
    · intro _ hother
      rw [if_neg (by omega), if_pos hother]

/-- The client asks again behind the replies that are passing. -/
theorem IsClear.passing_iff (h : r.IsClear) :
    Retry.Passing SystemError.isRetryable (r.outcome number url) ↔ r.isPassing = true := by
  rcases h with hmanner | hmanner | ⟨hmanner, hfinal⟩
  · rw [outcome_close number url hmanner]
    exact iff_of_true ⟨_, rfl, rfl⟩ (by simp [isPassing, hmanner])
  · rw [outcome_stall number url hmanner]
    exact iff_of_true ⟨_, rfl, rfl⟩ (by simp [isPassing, hmanner])
  · rw [outcome_whole number url hmanner hfinal, isPassing]
    by_cases hnone : r.status = 204
    · rw [if_pos hnone]
      refine iff_of_false (fun ⟨_, he, _⟩ => by cases he) ?_
      simp [hmanner, hnone]
    by_cases hother : r.status < 200 ∨ 300 ≤ r.status
    · rw [if_neg hnone, if_pos hother]
      simp [Retry.Passing, SystemError.isRetryable, hmanner]
    · rw [if_neg hnone, if_neg hother]
      refine iff_of_false (fun ⟨e, he, hretryable⟩ => ?_) ?_
      · cases hbody : Answer.ofSymbols? (Text.symbols r.body) with
        | none =>
          rw [hbody] at he
          cases he
          cases hretryable
        | some a =>
          rw [hbody] at he
          cases he
      · simp only [hmanner, reduceCtorEq, decide_false, Bool.false_or, Bool.or_eq_true,
          decide_eq_true_eq]
        omega

end Reply

/-- Where all replies of a server are clear, so is each that comes. -/
theorem Server.isClear_reply {s : Server} (h : ∀ r ∈ s.first :: s.others, r.IsClear) (k : ℕ) :
    (s.reply k).IsClear := by
  refine h _ ?_
  rw [Server.reply]
  cases hk : (s.first :: s.others)[k]? with
  | some r => exact List.mem_of_getElem? hk
  | none =>
    cases hlast : s.others.getLast? with
    | some r => exact List.mem_cons_of_mem _ (List.mem_of_getLast? hlast)
    | none => exact List.mem_cons_self

/-! ## Queries -/

/-- What one query does, while the server has answered `used` requests: it asks for the order at
    one address until a reply is not passing or the retries are used up, and the last reply
    decides. -/
structure Query.Obeys (q : Query) (policy : RetryPolicy) (s : Server) (path : String) (used : ℕ)
    (number : String) : Prop where
  asks : q.requests =
    List.replicate q.requests.length ("GET " ++ path ++ "/api/orders/" ++ number)
  asks_once : 1 ≤ q.requests.length
  bounded : q.requests.length ≤ policy.maxRetries.toNat + 1
  passing : ∀ k, k + 1 < q.requests.length → (s.reply (used + k)).isPassing = true
  stops : q.requests.length = policy.maxRetries.toNat + 1 ∨
    (s.reply (used + (q.requests.length - 1))).isPassing = false
  decided : (s.reply (used + (q.requests.length - 1))).Decides number q.run.result

/-- Queries one after another, each from the reply behind the last one of the query before. -/
inductive InTurn (policy : RetryPolicy) (s : Server) (path : String) :
    ℕ → List String → List Query → Prop where
  | nil {used : ℕ} : InTurn policy s path used [] []
  | cons {used : ℕ} {number : String} {numbers : List String} {q : Query} {qs : List Query}
      (hq : q.Obeys policy s path used number)
      (hqs : InTurn policy s path (used + q.requests.length) numbers qs) :
    InTurn policy s path used (number :: numbers) (q :: qs)

section queries

variable {policy : RetryPolicy} {s : Server} {base : String} {u : Url} {number : String}

/-- The names below the address of the oracle. -/
def orderNames (number : String) : List (List Char) :=
  [['a', 'p', 'i'], ['o', 'r', 'd', 'e', 'r', 's'], number.toList]

theorem ofList_orderNames (path : List Char) (number : String) :
    String.ofList (path ++ Url.joined (orderNames number)) =
      String.ofList path ++ "/api/orders/" ++ number := by
  refine String.toList_inj.mp ?_
  simp [Url.joined, orderNames]

theorem isPlain_of_mem_orderNames (hnumber : ∀ c ∈ number.toList, c.isDigit = true) :
    ∀ x ∈ orderNames number, Url.IsPlain x := by
  simp only [orderNames, List.forall_mem_cons]
  refine ⟨?_, ?_, Url.isPlain_of_digits hnumber, nofun⟩
  · exact Url.isPlain_of_all (by decide) (by decide) (by decide)
  · exact Url.isPlain_of_all (by decide) (by decide) (by decide)

/-- Orders are asked for at the address of the oracle, and below it. -/
theorem requestUrl_eq (hbase : u.IsBase base) (hsendable : isSendable u = true)
    (hnumber : ∀ c ∈ number.toList, c.isDigit = true) :
    requestUrl base number =
      .ok { u with path := Url.folder u.path ++ Url.joined (orderNames number) } := by
  have htext : orderAddress base number =
      base ++ String.ofList (Url.joined (orderNames number)) := by
    refine String.toList_inj.mp ?_
    simp [orderAddress, Url.joined, orderNames]
  have hread := hbase.read_append (isPlain_of_mem_orderNames hnumber) (List.cons_ne_nil _ _)
  rw [requestUrl, htext, hread]
  dsimp only
  rw [if_pos]
  refine ⟨.inl ?_, hsendable⟩
  rw [hbase.scheme]

/-- A query obeys, whatever the server makes of it. -/
theorem ask_obeys (hbase : u.IsBase base) (hsendable : isSendable u = true)
    (hserves : s.serves u = true) (hclear : ∀ r ∈ s.first :: s.others, r.IsClear)
    (hnumber : ∀ c ∈ number.toList, c.isDigit = true) (used : ℕ) :
    (ask policy (some s) base used number).Obeys policy s (String.ofList (Url.folder u.path)) used
      number := by
  have hreaches : (some s).filter (·.serves
      { u with path := Url.folder u.path ++ Url.joined (orderNames number) }) = some s :=
    Option.filter_eq_some_iff.mpr ⟨rfl, hserves⟩
  have htarget : String.ofList (Url.target
      { u with path := Url.folder u.path ++ Url.joined (orderNames number) }) =
        String.ofList (Url.folder u.path) ++ "/api/orders/" ++ number := by
    rw [Url.target, hbase.query, Url.marked, List.append_nil, ofList_orderNames]
  rw [ask, requestUrl_eq hbase hsendable hnumber]
  simp only [hreaches, htarget]
  generalize Url.toText { u with path := Url.folder u.path ++ Url.joined (orderNames number) } = url
  have hrun := Retry.run_stops policy SystemError.isRetryable fun k =>
    (s.reply (used + k)).outcome number url
  generalize Retry.run policy _ _ = run at hrun
  have hcalls : run.calls = run.retried.length + 1 := rfl
  have hreply := s.isClear_reply hclear
  refine ⟨?_, ?_, ?_, ?_, ?_, ?_⟩
  all_goals simp only [List.length_replicate, hcalls, Nat.add_sub_cancel]
  · rw [← String.append_assoc, ← String.append_assoc]
  · omega
  · have hbounded := hrun.bounded
    omega
  · intro k hk
    have hpassing := hrun.passing k (by omega)
    rw [Nat.zero_add] at hpassing
    exact ((hreply _).passing_iff number url).mp hpassing
  · have hstops := hrun.stops
    rw [Nat.zero_add, (hreply _).passing_iff number url, Bool.not_eq_true] at hstops
    exact hstops.imp_left fun h => by rw [h]
  · have hresult := hrun.result
    rw [Nat.zero_add] at hresult
    rw [hresult]
    exact (hreply _).decides number url

/-- All orders are asked for in turn. -/
theorem askAll_inTurn (policy : RetryPolicy) (hbase : u.IsBase base)
    (hsendable : isSendable u = true) (hserves : s.serves u = true)
    (hclear : ∀ r ∈ s.first :: s.others, r.IsClear) {numbers : List String}
    (hnumbers : ∀ number ∈ numbers, ∀ c ∈ number.toList, c.isDigit = true) (used : ℕ) :
    InTurn policy s (String.ofList (Url.folder u.path)) used numbers
      (askAll policy (some s) base used numbers) := by
  induction numbers generalizing used with
  | nil => exact .nil
  | cons number numbers ih =>
    rw [List.forall_mem_cons] at hnumbers
    exact .cons (ask_obeys hbase hsendable hserves hclear hnumbers.1 used) (ih hnumbers.2 _)

end queries

/-- A server that is busy twice before it answers, and does not know the next order. -/
def busyServer : Server where
  address := "oracle:8080"
  first := { manner := .stall }
  others := [{ status := 429 },
    { body := "\x7b\"order\":\"18\",\"status\":\"PROCESSED\"\x7d".toUTF8.toList },
    { status := 204 }]

def busyUrl : Url :=
  ⟨['h', 't', 't', 'p'], some "oracle".toList, some 8080, "/v1".toList, none, none⟩

def fivefold : RetryPolicy := ⟨5, ⟨0⟩, ⟨0⟩, .nan⟩

theorem askAll_inTurn_of_busy :
    busyUrl.IsBase "http://oracle:8080/v1" ∧ isSendable busyUrl = true ∧
      busyServer.serves busyUrl = true ∧
      (∀ r ∈ busyServer.first :: busyServer.others, r.IsClear) ∧
      (∀ number ∈ ["18", "26"], ∀ c ∈ number.toList, c.isDigit = true) ∧
      InTurn fivefold busyServer (String.ofList (Url.folder busyUrl.path)) 0 ["18", "26"]
        (askAll fivefold (some busyServer) "http://oracle:8080/v1" 0 ["18", "26"]) ∧
      (askAll fivefold (some busyServer) "http://oracle:8080/v1" 0 ["18", "26"]).map
        (·.requests) = [List.replicate 3 "GET /v1/api/orders/18", ["GET /v1/api/orders/26"]] := by
  have hbase : busyUrl.IsBase "http://oracle:8080/v1" := by
    refine ⟨by decide +kernel, rfl, rfl, rfl, fun c hc => ?_⟩
    have hlast : "http://oracle:8080/v1".toList.getLast? = some '1' := by decide +kernel
    obtain rfl : '1' = c := Option.some.inj (hlast.symm.trans hc)
    decide
  have hsendable : isSendable busyUrl = true := by decide +kernel
  have hserves : busyServer.serves busyUrl = true := by decide +kernel
  have hclear : ∀ r ∈ busyServer.first :: busyServer.others, r.IsClear := by
    simp [busyServer, Reply.IsClear, isFinal, isInterim]
  have hnumbers : ∀ number ∈ ["18", "26"], ∀ c ∈ number.toList, c.isDigit = true := by
    simp
  exact ⟨hbase, hsendable, hserves, hclear, hnumbers,
    askAll_inTurn fivefold hbase hsendable hserves hclear hnumbers 0, by decide +kernel⟩

end Oracle

end LoyaltyPoints
