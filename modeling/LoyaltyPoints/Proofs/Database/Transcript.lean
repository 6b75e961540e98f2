import Mathlib
import LoyaltyPoints.Database.Script

/-! # Database: what is said to a scripted server

    A transcript tells what a server was sent and what it answered to each. The answers come from
    the script alone, so the transcript of any list of things that could be sent is known in
    advance; what was sent decides how much of it is heard.

    `Tells` is the rule by which programs are read: an action on a script has one transcript and
    one result, and what holds of both follows from what holds of its parts. -/

namespace LoyaltyPoints.Database

/-! ## Transcripts -/

/-- What was sent, and the answer. A control statement is acknowledged by an empty reply. -/
structure Exchange where
  sent : Sent
  answer : Response

/-- What a script has not answered yet. -/
structure Script.Rest where
  replies : List Response
  refusals : List (Control × Refusal)

namespace Script

/-- The answer to the next thing sent, and what the script answers behind it. -/
def Rest.next (rest : Rest) : Sent → Response × Rest
  | .control c =>
    match rest.refusals with
    | (d, r) :: refusals => if d = c then (.error r, { rest with refusals }) else (.ok {}, rest)
    | [] => (.ok {}, rest)
  | .statement _ | .script _ =>
    match rest.replies with
    | r :: replies => (r, { rest with replies })
    | [] => (.ok {}, rest)

/-- How all of this is answered, if it is sent in this order. -/
def Rest.transcript : Rest → List Sent → List Exchange
  | _, [] => []
  | rest, x :: xs => ⟨x, (rest.next x).1⟩ :: (rest.next x).2.transcript xs

variable {α β : Type}

def rest (s : Script) : Rest := ⟨s.replies, s.refusals⟩

/-- How a script answers all of this, if it is sent in this order. -/
def transcript (s : Script) (xs : List Sent) : List Exchange := s.rest.transcript xs

/-- What an action sends. -/
def sentBy (a : Action Script α) (s : Script) : List Sent :=
  (a.perform s).2.sent.drop s.sent.length

/-- What an action sends, and what it hears. -/
def conversation (a : Action Script α) (s : Script) : List Exchange := s.transcript (s.sentBy a)

theorem Rest.map_sent_transcript (rest : Rest) (xs : List Sent) :
    (rest.transcript xs).map (·.sent) = xs := by
  induction xs generalizing rest with
  | nil => rfl
  | cons x xs ih => rw [Rest.transcript, List.map_cons, ih]

/-- A script answers what is sent first as if nothing came behind it. -/
theorem Rest.transcript_prefix (rest : Rest) {xs ys : List Sent} (h : xs <+: ys) :
    rest.transcript xs <+: rest.transcript ys := by
  induction xs generalizing rest ys with
  | nil => exact List.nil_prefix
  | cons x xs ih =>
    obtain ⟨zs, rfl⟩ := h
    rw [List.cons_append, Rest.transcript, Rest.transcript, List.cons_prefix_cons]
    exact ⟨rfl, ih _ (List.prefix_append xs zs)⟩

theorem Rest.length_transcript (rest : Rest) (xs : List Sent) :
    (rest.transcript xs).length = xs.length := by
  rw [← List.length_map (·.sent), rest.map_sent_transcript]

/-- What is a transcript is one up to any point. -/
theorem Rest.transcript_of_prefix {rest : Rest} {t t' : List Exchange}
    (h : rest.transcript (t.map (·.sent)) = t) (hle : t' <+: t) :
    rest.transcript (t'.map (·.sent)) = t' := by
  have hprefix := rest.transcript_prefix (hle.map (·.sent))
  rw [h] at hprefix
  have hlength : (rest.transcript (t'.map (·.sent))).length = t'.length := by
    rw [rest.length_transcript, List.length_map]
  exact (List.prefix_of_prefix_length_le hprefix hle hlength.le).eq_of_length hlength

/-! ## Reading programs -/

/-- The action ends like this, in this script, and this is its transcript. -/
structure Hears (a : Action Script α) (s : Script) (t : List Exchange) (r : Except Fault α)
    (s' : Script) : Prop where
  perform : a.perform s = (r, s')
  sent : s'.sent = s.sent ++ t.map (·.sent)
  answers : ∀ xs, s.rest.transcript (t.map (·.sent) ++ xs) = t ++ s'.rest.transcript xs

/-- The transcript of the action, its value and the script behind it satisfy `Q`; if it breaks
    off, then the transcript, the fault and the script satisfy `E`. -/
def Tells (a : Action Script α) (s : Script) (Q : List Exchange → α → Script → Prop)
    (E : List Exchange → Fault → Script → Prop) : Prop :=
  ∃ t r s', Hears a s t r s' ∧ (∀ x, r = .ok x → Q t x s') ∧ ∀ f, r = .error f → E t f s'

section rules

variable {a : Action Script α} {f : α → Action Script β} {s s' : Script} {t : List Exchange}
  {Q : List Exchange → α → Script → Prop} {E : List Exchange → Fault → Script → Prop}

theorem Hears.sentBy_eq {r : Except Fault α} (h : Hears a s t r s') :
    s.sentBy a = t.map (·.sent) := by
  rw [sentBy, h.perform, h.sent, List.drop_left]

theorem Hears.transcript_eq {r : Except Fault α} (h : Hears a s t r s') :
    s.transcript (t.map (·.sent)) = t := by
  have hanswers := h.answers []
  rwa [List.append_nil, Rest.transcript, List.append_nil] at hanswers

theorem Hears.conversation_eq {r : Except Fault α} (h : Hears a s t r s') :
    s.conversation a = t := by
  rw [conversation, h.sentBy_eq, h.transcript_eq]

theorem Hears.tells_ok {x : α} (h : Hears a s t (.ok x) s') (hq : Q t x s') : Tells a s Q E :=
  ⟨t, _, s', h, fun _ hx => by cases hx; exact hq, nofun⟩

theorem Hears.tells_error {e : Fault} (h : Hears a s t (.error e) s') (he : E t e s') :
    Tells a s Q E :=
  ⟨t, _, s', h, nofun, fun _ hf => by cases hf; exact he⟩

/-- An action that neither sends nor hears anything. -/
theorem hears_silent {r : Except Fault α} (h : a.perform s = (r, s')) (hsent : s'.sent = s.sent)
    (hrest : s'.rest = s.rest) : Hears a s [] r s' :=
  ⟨h, by rw [hsent, List.map_nil, List.append_nil], fun xs => by rw [hrest]; rfl⟩

theorem tells_pure {x : α} (h : Q [] x s) : Tells (pure x) s Q E :=
  (hears_silent rfl rfl rfl).tells_ok h

theorem tells_fail {e : Error} (h : E [] (.error e) s) : Tells (Action.fail e) s Q E :=
  (hears_silent rfl rfl rfl).tells_error h

theorem tells_bind {Q : List Exchange → β → Script → Prop}
    (h : Tells a s
      (fun t x s' => Tells (f x) s' (fun t' => Q (t ++ t')) fun t' => E (t ++ t')) E) :
    Tells (a >>= f) s Q E := by
  obtain ⟨t, r, s', hears, hok, herror⟩ := h
  cases r with
  | error e =>
    refine Hears.tells_error ⟨?_, hears.sent, hears.answers⟩ (herror e rfl)
    rw [Action.perform_bind, hears.perform]
  | ok x =>
    obtain ⟨t', r', s'', hears', hok', herror'⟩ := hok x rfl
    refine ⟨t ++ t', r', s'', ⟨?_, ?_, fun xs => ?_⟩, hok', herror'⟩
    · rw [Action.perform_bind, hears.perform]
      exact hears'.perform
    · rw [hears'.sent, hears.sent, List.map_append, List.append_assoc]
    · rw [List.map_append, List.append_assoc, hears.answers, hears'.answers, List.append_assoc]

/-- An error that is caught is a value. -/
theorem tells_attempt {Q : List Exchange → Except Error α → Script → Prop}
    (h : Tells a s (fun t x => Q t (.ok x)) fun t f s' =>
      (∀ e, f = .error e → Q t (.error e) s') ∧ ∀ o, f = .overflow o → E t f s') :
    Tells a.attempt s Q E := by
  obtain ⟨t, r, s', hears, hok, herror⟩ := h
  have hattempt : ∀ {r'}, a.attempt.perform s = (r', s') → Hears a.attempt s t r' s' :=
    fun hperform => ⟨hperform, hears.sent, hears.answers⟩
  rcases r with (e | o) | x
  · refine (hattempt ?_).tells_ok ((herror _ rfl).1 e rfl)
    rw [Action.attempt, Action.perform_ofFun, hears.perform]
  · refine (hattempt ?_).tells_error ((herror _ rfl).2 o rfl)
    rw [Action.attempt, Action.perform_ofFun, hears.perform]
  · refine (hattempt ?_).tells_ok (hok x rfl)
    rw [Action.attempt, Action.perform_ofFun, hears.perform]

end rules

/-! ## A connection -/

/-- There is a connection, and this many ids and times have been handed out. -/
structure Online (stamps : ℕ) (s : Script) : Prop where
  link : s.link = .open
  poolClosed : s.poolClosed = false
  stamps : s.stamps = stamps

/-- Whether there is a connection, or one can be made. -/
def isReachable (s : Script) : Bool := (acquire.perform s).1.isOk

/-- The fresh id that is handed out after `k` others. -/
def freshUuid (s : Script) (k : ℕ) : Uuid := Uuid.ofNat (firstStamp + (s.stamps + k))

section connection

variable {s : Script} {n : ℕ} {E : List Exchange → Fault → Script → Prop}

theorem connectWith_cases (startups : List (Option Refusal)) (s : Script) :
    (connectWith startups s).2.sent = s.sent ∧ (connectWith startups s).2.rest = s.rest ∧
      (connectWith startups s).2.stamps = s.stamps ∧
      (connectWith startups s).2.poolClosed = s.poolClosed ∧
      ((connectWith startups s).1 = .ok () → (connectWith startups s).2.link = .open) := by
  induction startups with
  | nil => exact ⟨rfl, rfl, rfl, rfl, fun _ => rfl⟩
  | cons r startups ih =>
    rcases r with _ | (⟨code, message⟩ | _)
    · exact ⟨rfl, rfl, rfl, rfl, fun _ => rfl⟩
    · rw [connectWith]
      split
      · exact ih
      · exact ⟨rfl, rfl, rfl, rfl, nofun⟩
    · exact ⟨rfl, rfl, rfl, rfl, nofun⟩

/-- A connection is there or is made, or the pool says why not. -/
theorem hears_acquire (s : Script) :
    (s.isReachable = true ∧ ∃ s', Hears acquire s [] (.ok ()) s' ∧ s'.Online s.stamps) ∨
      (s.isReachable = false ∧
        ∃ e s', Hears acquire s [] (.error (.error (.database e))) s') := by
  have hreachable : s.isReachable = (acquire.perform s).1.isOk := rfl
  by_cases hpool : s.poolClosed = true
  · have hperform : acquire.perform s = (.error (.error (.database .poolClosed)), s) := by
      rw [acquire, Action.perform_ofFun, if_pos hpool]
    rw [hperform] at hreachable
    exact .inr ⟨hreachable, _, _, hears_silent hperform rfl rfl⟩
  · rw [Bool.not_eq_true] at hpool
    cases hlink : s.link with
    | «open» =>
      have hperform : acquire.perform s = (.ok (), s) := by
        rw [acquire, Action.perform_ofFun, if_neg (by simp [hpool]), hlink]
      rw [hperform] at hreachable
      exact .inl ⟨hreachable, s, hears_silent hperform rfl rfl, hlink, hpool, rfl⟩
    | none =>
      obtain ⟨hsent, hrest, hstamps, hclosed, hopen⟩ := connectWith_cases s.startups s
      rcases hconnect : connectWith s.startups s with ⟨e | _, s'⟩
      · have hperform : acquire.perform s = (.error (.error (.database e)), s') := by
          rw [acquire, Action.perform_ofFun, if_neg (by simp [hpool]), hlink]
          simp only [hconnect]
        rw [hperform] at hreachable
        rw [hconnect] at hsent hrest
        exact .inr ⟨hreachable, e, s', hears_silent hperform hsent hrest⟩
      · have hperform : acquire.perform s = (.ok (), s') := by
          rw [acquire, Action.perform_ofFun, if_neg (by simp [hpool]), hlink]
          simp only [hconnect]
        rw [hperform] at hreachable
        rw [hconnect] at hsent hrest hstamps hclosed hopen
        exact .inl ⟨hreachable, s', hears_silent hperform hsent hrest, hopen rfl,
          hclosed.trans hpool, hstamps⟩

/-- Where there is a connection, nothing has to be done for one. -/
theorem Online.perform_acquire (h : s.Online n) : acquire.perform s = (.ok (), s) := by
  rw [acquire, Action.perform_ofFun, if_neg (by simp [h.poolClosed]), h.link]

theorem tells_freshId {Q : List Exchange → Uuid → Script → Prop} (hs : s.Online n)
    (h : ∀ s', s'.Online (n + 1) → Q [] (Uuid.ofNat (firstStamp + n)) s') :
    Tells server.freshId s Q E := by
  have hperform : server.freshId.perform s =
      (.ok (Uuid.ofNat (firstStamp + n)), { s with stamps := s.stamps + 1 }) := by
    rw [← hs.stamps]
    rfl
  exact (hears_silent hperform rfl rfl).tells_ok
    (h _ ⟨hs.link, hs.poolClosed, congrArg (· + 1) hs.stamps⟩)

/-- A statement is answered, and the connection stays, or it is refused. -/
theorem hears_send (x : Statement) (s : Script) :
    (∃ reply s', Hears (send (.statement x)) s [⟨.statement x, .ok reply⟩] (.ok reply) s' ∧
        ∀ n, s.Online n → s'.Online n) ∨
      ∃ why s', Hears (send (.statement x)) s [⟨.statement x, .error why⟩]
        (.error (.error (.database why.cause))) s' := by
  rcases hreplies : s.replies with _ | ⟨why | reply, replies⟩
  · refine .inl ⟨{}, s.note (.statement x), ⟨?_, rfl, fun xs => ?_⟩, fun n hs => ?_⟩
    · rw [send, Action.perform_ofFun]
      simp only [note, hreplies]
    · simp [Rest.transcript, Rest.next, rest, note, hreplies]
    · exact ⟨hs.link, hs.poolClosed, hs.stamps⟩
  · refine .inr ⟨why, (refuse (α := Reply) why { s.note (.statement x) with replies }).2,
      ⟨?_, ?_, fun xs => ?_⟩⟩
    · rw [send, Action.perform_ofFun]
      simp only [note, hreplies]
      rfl
    · cases why <;> rfl
    · cases why <;> simp [Rest.transcript, Rest.next, rest, note, hreplies, refuse]
  · refine .inl ⟨reply, { s.note (.statement x) with replies }, ⟨?_, rfl, fun xs => ?_⟩,
      fun n hs => ?_⟩
    · rw [send, Action.perform_ofFun]
      simp only [note, hreplies]
    · simp [Rest.transcript, Rest.next, rest, note, hreplies]
    · exact ⟨hs.link, hs.poolClosed, hs.stamps⟩

/-- A control statement is acknowledged, and the connection stays, or it is refused. -/
theorem hears_control (c : Control) (s : Script) :
    (∃ s', Hears (control c) s [⟨.control c, .ok {}⟩] (.ok ()) s' ∧
        ∀ n, s.Online n → s'.Online n) ∨
      ∃ why s', Hears (control c) s [⟨.control c, .error why⟩]
        (.error (.error (.database why.cause))) s' := by
  by_cases hnext : ∃ why refusals, s.refusals = (c, why) :: refusals
  · obtain ⟨why, refusals, hrefusals⟩ := hnext
    refine .inr ⟨why, (refuse (α := Unit) why { s.note (.control c) with refusals }).2,
      ⟨?_, ?_, fun xs => ?_⟩⟩
    · rw [control, Action.perform_ofFun]
      simp only [note, hrefusals, if_true]
      rfl
    · cases why <;> rfl
    · cases why <;> simp [Rest.transcript, Rest.next, rest, note, hrefusals, refuse]
  · have hothers : ∀ d why refusals, s.refusals = (d, why) :: refusals → d ≠ c :=
      fun d why refusals h heq => hnext ⟨why, refusals, heq ▸ h⟩
    refine .inl ⟨s.note (.control c), ⟨?_, rfl, fun xs => ?_⟩, fun n hs => ?_⟩
    · rw [control, Action.perform_ofFun]
      rcases hrefusals : s.refusals with _ | ⟨⟨d, why⟩, refusals⟩
      · simp only [note, hrefusals]
      · simp only [note, hrefusals, if_neg (hothers _ _ _ hrefusals)]
    · rcases hrefusals : s.refusals with _ | ⟨⟨d, why⟩, refusals⟩
      · simp [Rest.transcript, Rest.next, rest, note, hrefusals]
      · simp [Rest.transcript, Rest.next, rest, note, hrefusals, hothers _ _ _ hrefusals]
    · exact ⟨hs.link, hs.poolClosed, hs.stamps⟩

/-- Where there is a connection, a statement is sent at once. -/
theorem tells_execute {Q : List Exchange → Reply → Script → Prop} {x : Statement}
    (hs : s.Online n)
    (hok : ∀ reply s', s'.Online n → Q [⟨.statement x, .ok reply⟩] reply s')
    (hrefused : ∀ why s', E [⟨.statement x, .error why⟩] (.error (.database why.cause)) s') :
    Tells (server.execute x) s Q E := by
  have hperform : (server.execute x).perform s = (send (.statement x)).perform s := by
    show (acquire >>= fun _ => send (.statement x)).perform s = _
    rw [Action.perform_bind, hs.perform_acquire]
  rcases hears_send x s with ⟨reply, s', hears, honline⟩ | ⟨why, s', hears⟩
  · exact Hears.tells_ok ⟨hperform.trans hears.perform, hears.sent, hears.answers⟩
      (hok reply s' (honline n hs))
  · exact Hears.tells_error ⟨hperform.trans hears.perform, hears.sent, hears.answers⟩
      (hrefused why s')

theorem tells_control {Q : List Exchange → Unit → Script → Prop} {c : Control}
    (hok : ∀ s', (∀ n, s.Online n → s'.Online n) → Q [⟨.control c, .ok {}⟩] () s')
    (hrefused : ∀ why s', E [⟨.control c, .error why⟩] (.error (.database why.cause)) s') :
    Tells (control c) s Q E := by
  rcases hears_control c s with ⟨s', hears, honline⟩ | ⟨why, s', hears⟩
  · exact hears.tells_ok (hok s' honline)
  · exact hears.tells_error (hrefused why s')

/-- What failed is rolled back, unless the connection is lost; the answer does not matter. -/
theorem tells_abandon {Q : List Exchange → Unit → Script → Prop} (hlost : ∀ s', Q [] () s')
    (hrollback : ∀ answer s', Q [⟨.control .rollback, answer⟩] () s') :
    Tells abandon s Q E := by
  cases hlink : s.link with
  | none =>
    have hperform : abandon.perform s = (.ok (), s) := by
      rw [abandon, Action.perform_ofFun, hlink]
    exact (hears_silent hperform rfl rfl).tells_ok (hlost s)
  | «open» =>
    rcases hears_control .rollback s with ⟨s', hears, -⟩ | ⟨why, s', hears⟩
    · have hperform : abandon.perform s = (.ok (), s') := by
        rw [abandon, Action.perform_ofFun, hlink]
        simp only [hears.perform]
      exact Hears.tells_ok ⟨hperform, hears.sent, hears.answers⟩ (hrollback _ s')
    · have hperform : abandon.perform s = (.ok (), { s' with link := .none }) := by
        rw [abandon, Action.perform_ofFun, hlink]
        simp only [hears.perform]
      exact Hears.tells_ok ⟨hperform, hears.sent, hears.answers⟩ (hrollback _ _)

end connection

end Script

end LoyaltyPoints.Database
