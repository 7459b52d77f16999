import PushDispatch.Proofs.Fcm.Complaints
import PushDispatch.Proofs.Fcm.Posts

/-! What becomes of a device whose push the service refuses. The last reply for the device alone decides: only one
whose body says that the device is no longer known makes its token stale, and every other refusal fails with the
status and the words of the service. -/

namespace PushDispatch

namespace Fcm

/-! ### The meaning of one refusal -/

/-- The text that the body of a refusal is read from; one that was cut short counts as empty. -/
def Reply.contentText (r : Reply) : List Char := if r.isWhole then Text.Utf8.decodeLossy r.content else []

/-- What is shown of a body: the message of the complaint in it, or, without one, how the body begins. -/
def Shows (body : List Char) (text : String) : Prop :=
  (∀ c, Complaint.StandsIn body c → c.message ≠ "" → text = c.message) ∧
    ((∀ c, Complaint.StandsIn body c → c.message = "") → text = String.ofList (body.take 200))

/-- What the exchanges for one device say about the outcome. It is stale only if the last reply, which does not
report success, says so, and it is if the first error code or the message does. Any other last reply without success
is a failure that shows its status and its body. -/
structure Justifies (exchanges : List Exchange) (outcome : Outcome) : Prop where
  stale : outcome = .unregistered →
    ∃ r, exchanges.getLast? = some (.replied r) ∧ r.isSuccess = false ∧ Complaint.SaysStale r.contentText
  told : ∀ r c, exchanges.getLast? = some (.replied r) → r.isSuccess = false → Complaint.StandsIn r.contentText c →
    ((c.details.filterMap id).head? = some "UNREGISTERED" ∨
      c.status = "INVALID_ARGUMENT" ∧ Complaint.Mentions "registration token" c.message) → outcome = .unregistered
  failed : ∀ r, exchanges.getLast? = some (.replied r) → r.isSuccess = false → outcome ≠ .unregistered →
    ∃ text, Shows r.contentText text ∧
      outcome = .failed ("FCM rejected the message with status " ++ Text.Decimal.text r.status ++ ": " ++ text)
        (r.status = 429 ∨ 500 ≤ r.status ∧ r.status < 600)

theorem shows_of_read (body : List Char) :
    Shows body (if (Complaint.read body).message.isEmpty then String.ofList (body.take excerptLength)
      else (Complaint.read body).message) := by
  constructor
  · intro c hc hm
    rw [hc.read_eq, if_neg (by simpa using hm)]
  · intro h
    have hm : (Complaint.read body).message = "" := by
      by_cases hs : ∃ c, Complaint.StandsIn body c
      · obtain ⟨c, hc⟩ := hs
        rw [hc.read_eq, h c hc]
      · rw [Complaint.read_eq_empty fun c hc => hs ⟨c, hc⟩]
        rfl
    rw [hm]
    rfl

theorem refusal_of_stale {status : Nat} {wait : Option Duration} {body : List Char}
    (h : (Complaint.read body).namesStaleDevice = true) : refusal status wait body = .unregisteredDevice := by
  simp [refusal, h]

/-- A refusal that does not tell of a stale device has its status and shows its body. -/
theorem refusal_of_not_stale (status : Nat) (wait : Option Duration) {body : List Char}
    (h : (Complaint.read body).namesStaleDevice = false) :
    ∃ text, Shows body text ∧
      refusal status wait body = .rejected status text (status = 429 ∨ 500 ≤ status ∧ status < 600) wait :=
  ⟨_, shows_of_read body, by simp [refusal, h, Reply.mayRetry]⟩

theorem Reply.answer_of_isSuccess {r : Reply} (h : r.isSuccess = true) :
    (∃ id, r.answer = .accepted id) ∨ r.answer = .refused (.http .unreadableAnswer) := by
  simp only [answer, h, if_true]
  split
  · exact .inl ⟨_, rfl⟩
  · exact .inr rfl

theorem Reply.answer_of_not_isSuccess {r : Reply} (h : r.isSuccess = false) :
    r.answer = .refused (refusal r.status r.retryAfter? r.contentText) := by
  simp [answer, h, contentText]

/-- Only a reply without success can be a refusal. -/
theorem Exchange.cases_of_outcome {e : Exchange} {url : String} {outcome : Outcome}
    (ho : (e.answer url).outcome? = some outcome) :
    (outcome ≠ .unregistered ∧ ∀ r, e = .replied r → r.isSuccess = true) ∨
      ∃ r, e = .replied r ∧ r.isSuccess = false ∧
        (Answer.refused (refusal r.status r.retryAfter? r.contentText)).outcome? = some outcome := by
  cases e with
  | replied r =>
    rw [Exchange.answer] at ho
    cases hs : r.isSuccess with
    | false => exact .inr ⟨r, rfl, hs, Reply.answer_of_not_isSuccess hs ▸ ho⟩
    | true =>
      refine .inl ⟨?_, fun r' h => by cases h; exact hs⟩
      rintro rfl
      rcases Reply.answer_of_isSuccess hs with ⟨id, h⟩ | h <;> simp [h, Answer.outcome?] at ho
  | _ =>
    refine .inl ⟨?_, fun r h => by cases h⟩
    rintro rfl
    simp [answer, Answer.outcome?] at ho

theorem Exchange.justifies_of_outcome {exchanges : List Exchange} {e : Exchange} (hl : exchanges.getLast? = some e)
    {url : String} {outcome : Outcome} (ho : (e.answer url).outcome? = some outcome) : Justifies exchanges outcome := by
  have heq : ∀ {r}, exchanges.getLast? = some (.replied r) → e = .replied r := fun h => Option.some.inj (hl.symm.trans h)
  rcases cases_of_outcome ho with ⟨hne, hsuccess⟩ | ⟨r, rfl, hs, ho⟩
  · refine ⟨fun h => absurd h hne, fun r c hr hs => ?_, fun r hr hs => ?_⟩ <;>
      simp [hsuccess r (heq hr)] at hs
  · cases h : (Complaint.read r.contentText).namesStaleDevice with
    | true =>
      rw [refusal_of_stale h] at ho
      obtain rfl : .unregistered = outcome := Option.some.inj ho
      exact ⟨fun _ => ⟨r, hl, hs, Complaint.saysStale_of_namesStaleDevice h⟩, fun _ _ _ _ _ _ => rfl,
        fun _ _ _ hne => absurd rfl hne⟩
    | false =>
      obtain ⟨text, hshows, hr⟩ := refusal_of_not_stale r.status r.retryAfter? h
      rw [hr] at ho
      have ho := Option.some.inj ho
      refine ⟨fun hu => ?_, fun r' c hr' _ hc hsays => ?_, fun r' hr' _ _ => ?_⟩
      · rw [hu] at ho
        cases ho
      · cases heq hr'
        rw [hc.read_eq, Complaint.namesStaleDevice_iff.2 hsays] at h
        cases h
      · cases heq hr'
        exact ⟨text, hshows, ho.symm⟩

/-! ### The exchanges of a dispatch -/

namespace Client

variable {σ : Type} {c : Client} {network : Network σ}

/-- The exchanges of one delivery in a trace, over a network that begins in the given state. -/
def exchangesAt (c : Client) (network : Network σ) (index : Nat) : σ → List (Nat × Happening) → List Exchange
  | _, [] => []
  | state, (_, .sent i request) :: trace =>
    match c.post request with
    | .ok post =>
      let ((_, exchange), next) := network.exchange state post
      if i = index then exchange :: c.exchangesAt network index next trace else c.exchangesAt network index next trace
    | .error _ => c.exchangesAt network index state trace
  | state, _ :: trace => c.exchangesAt network index state trace

/-- Whether a post can be made is the same for all requests, and so is its URL. -/
theorem post_cases (c : Client) :
    (∃ url : Url, ∀ request, ∃ post, c.post request = .ok post ∧ post.url = url) ∨
      ∀ request, ∃ problem, c.post request = .error problem := by
  by_cases h : ∃ request post, c.post request = .ok post
  · obtain ⟨request, post, h⟩ := h
    exact .inl ⟨post.url, fun other => ⟨_, post_eq h other, rfl⟩⟩
  · refine .inr fun request => ?_
    cases hp : c.post request with
    | ok post => exact absurd ⟨request, post, hp⟩ h
    | error problem => exact ⟨problem, rfl⟩

/-- The answers to a delivery are what its exchanges mean. -/
theorem answersAt_performed {url : Url} (hpost : ∀ request, ∃ post, c.post request = .ok post ∧ post.url = url)
    (index : Nat) (state : σ) (trace : List (Nat × Happening)) :
    answersAt index ((c.transport network).performed state trace) =
      (c.exchangesAt network index state trace).map (Exchange.answer url.text) := by
  induction trace generalizing state with
  | nil => rfl
  | cons x trace ih =>
    obtain ⟨time, happening⟩ := x
    cases happening with
    | sent i request =>
      obtain ⟨post, hp, rfl⟩ := hpost request
      have hsend : (c.transport network).send state request =
          (⟨(network.exchange state post).1.1, (network.exchange state post).1.2.answer post.url.text,
            [.sending c.sendUrl]⟩, (network.exchange state post).2) := by
        simp [transport, hp]
      rw [Transport.performed_sent, hsend, answersAt_cons, ih]
      by_cases h : i = index <;> simp [exchangesAt, hp, h]
    | _ => exact ih state

/-- Where no post can be made every answer tells why one of the posts was not. -/
theorem exists_error_of_mem_answersAt (network : Network σ)
    (hpost : ∀ request, ∃ problem, c.post request = .error problem) {index : Nat} {state : σ}
    {trace : List (Nat × Happening)} {answer : Answer}
    (hm : answer ∈ answersAt index ((c.transport network).performed state trace)) :
    ∃ request problem, c.post request = .error problem ∧ answer = .refused (.http problem) := by
  obtain ⟨x, hx, rfl⟩ := List.mem_map.1 hm
  obtain ⟨earlier, hsent⟩ := Transport.exists_send_of_mem_performed _ (List.mem_of_mem_filter hx)
  obtain ⟨problem, hp⟩ := hpost x.request
  exact ⟨x.request, problem, hp, by simp [hsent, transport, hp]⟩

/-- Where no post can be made there is no exchange, and every answer tells why. -/
theorem of_post_error (network : Network σ) (hpost : ∀ request, ∃ problem, c.post request = .error problem) (index : Nat)
    (state : σ) (trace : List (Nat × Happening)) :
    c.exchangesAt network index state trace = [] ∧
      ∀ answer ∈ answersAt index ((c.transport network).performed state trace),
        ∃ problem, answer = .refused (.http problem) := by
  constructor
  · induction trace generalizing state with
    | nil => rfl
    | cons x trace ih =>
      obtain ⟨time, happening⟩ := x
      cases happening with
      | sent i request =>
        obtain ⟨problem, hp⟩ := hpost request
        simp only [exchangesAt, hp]
        exact ih state
      | _ => exact ih state
  · intro answer hm
    obtain ⟨_, problem, -, ha⟩ := exists_error_of_mem_answersAt network hpost hm
    exact ⟨problem, ha⟩

/-- Where no post can be made the network stays as it is. -/
theorem transport_after_of_error (network : Network σ) (hpost : ∀ request, ∃ problem, c.post request = .error problem)
    (state : σ) (requests : List Request) : (c.transport network).after state requests = state := by
  induction requests generalizing state with
  | nil => rfl
  | cons request requests ih =>
    obtain ⟨problem, hp⟩ := hpost request
    rw [Transport.after_cons, ih]
    simp [transport, hp]

end Client

end Fcm

/-! ### Reports -/

namespace Dispatcher

open Tasks (Path)

/-- Each report is justified by the exchanges for its device, and so is each stale token. -/
structure JustifiedBy (devices : List Device) (exchanges : Nat → List Fcm.Exchange) (reports : List Report) : Prop where
  length : reports.length = devices.length
  outcomes : ∀ (i : Nat) (device : Device), devices[i]? = some device →
    ∃ r, reports[i]? = some r ∧ r.device = device ∧ Fcm.Justifies (exchanges i) r.outcome
  stale : ∀ token ∈ (⟨reports⟩ : Summary).staleTokens, ∃ (i : Nat) (device : Device) (r : Fcm.Reply),
    devices[i]? = some device ∧ device.token = token ∧ (exchanges i).getLast? = some (.replied r) ∧
      r.isSuccess = false ∧ Fcm.Complaint.SaysStale r.contentText

theorem JustifiedBy.of_reports {devices : List Device} {exchanges : Nat → List Fcm.Exchange} {reports : List Report}
    (hlen : reports.length = devices.length)
    (h : ∀ (i : Nat) (device : Device), devices[i]? = some device →
      ∃ r, reports[i]? = some r ∧ r.device = device ∧ Fcm.Justifies (exchanges i) r.outcome) :
    JustifiedBy devices exchanges reports := by
  refine ⟨hlen, h, fun token hm => ?_⟩
  obtain ⟨r, hr, rfl⟩ := List.mem_map.1 hm
  obtain ⟨hr, hstale⟩ := List.mem_filter.1 hr
  obtain ⟨i, hi⟩ := List.mem_iff_getElem?.1 hr
  have hlt : i < devices.length := hlen ▸ (List.getElem?_eq_some_iff.1 hi).1
  obtain ⟨r', hr', hd, hj⟩ := h i devices[i] (List.getElem?_eq_getElem hlt)
  obtain rfl : r = r' := Option.some.inj (hi.symm.trans hr')
  obtain ⟨reply, hl, hs, hsays⟩ := hj.stale (by simpa [Report.isStale] using hstale)
  exact ⟨i, r.device, reply, hd ▸ List.getElem?_eq_getElem hlt, rfl, hl, hs, hsays⟩

theorem JustifiedBy.of_complete {p : RetryPolicy} {devices : List Device} {answers : Nat → List Answer}
    {reports : List Report} (h : Complete p devices answers reports) {exchanges : Nat → List Fcm.Exchange}
    {url : String} (ha : ∀ i, answers i = (exchanges i).map (Fcm.Exchange.answer url)) :
    JustifiedBy devices exchanges reports := by
  refine JustifiedBy.of_reports h.1 fun i device hd => ?_
  obtain ⟨r, hr, htells⟩ := h.2 i device hd
  have hn : .aborted ∉ answers i := by
    rw [ha]
    intro hm
    obtain ⟨e, -, he⟩ := List.mem_map.1 hm
    exact Fcm.Exchange.answer_ne_aborted url e he
  obtain ⟨last, hl, ho⟩ := htells.outcome_eq hn
  rw [ha, List.getLast?_map] at hl
  obtain ⟨e, he, rfl⟩ := Option.map_eq_some_iff.1 hl
  exact ⟨r, hr, htells.own, Fcm.Exchange.justifies_of_outcome he ho⟩

/-- Where no post can be made no device is stale. -/
theorem JustifiedBy.of_no_post {p : RetryPolicy} {devices : List Device} {answers : Nat → List Answer}
    {reports : List Report} (h : Complete p devices answers reports)
    (ha : ∀ i, ∀ answer ∈ answers i, ∃ problem, answer = .refused (.http problem)) :
    JustifiedBy devices (fun _ => []) reports := by
  refine .of_reports h.1 fun i device hd => ?_
  obtain ⟨r, hr, htells⟩ := h.2 i device hd
  have hn : .aborted ∉ answers i := by
    intro hm
    obtain ⟨problem, hp⟩ := ha i _ hm
    cases hp
  obtain ⟨last, hl, ho⟩ := htells.outcome_eq hn
  obtain ⟨problem, rfl⟩ := ha i last (List.mem_of_getLast? hl)
  refine ⟨r, hr, htells.own, fun hu => ?_, fun _ _ hr' => (by cases hr'), fun _ hr' => (by cases hr')⟩
  rw [hu] at ho
  cases ho

/-- In a dispatch over whatever network a token is stale only if the last reply for its device reports no success and
says that the device is no longer known. Each other delivery that ends with such a reply fails, with the status of the
reply and what its body says, and may be tried again exactly if the service is busy or broken. That holds for every
order in which tasks take their steps and are joined, and of the scheduled run. -/
theorem stale_only_if_told (d : Dispatcher) (hp : d.permits ≤ maxPermits) (c : Fcm.Client) (devices : List Device)
    (message : Message) :
    (∀ moves s joined, Path d.retry (Tasks.start d.permits devices.length) moves s → s.IsOver →
      joined.Perm s.results → ∀ (exchanges : Nat → List Fcm.Exchange) (url : String),
        (∀ i, answersOf i moves = (exchanges i).map (Fcm.Exchange.answer url)) →
          JustifiedBy devices exchanges (reports devices joined)) ∧
    ∀ (σ : Type) (network : Fcm.Network σ) (state : σ) (clock : Nat),
      ∃ x, d.dispatch (c.transport network) state clock devices message = some x ∧
        JustifiedBy devices (fun i => c.exchangesAt network i state x.trace) x.summary.reports := by
  constructor
  · intro moves s joined hpath ho hj exchanges url ha
    exact .of_complete (complete_reports hpath.recorded ho hj) ha
  · intro σ network state clock
    obtain ⟨x, hx, hcomplete, -⟩ := d.exists_complete hp (c.transport network) state clock devices message
    refine ⟨x, hx, ?_⟩
    rcases c.post_cases with ⟨url, hpost⟩ | hpost
    · exact .of_complete hcomplete fun i => Fcm.Client.answersAt_performed hpost i state x.trace
    · have hnone := fun i => Fcm.Client.of_post_error network hpost i state x.trace
      simp only [fun i => (hnone i).1]
      exact .of_no_post hcomplete fun i => (hnone i).2

/-- The service answers twice with status 404: it no longer knows the one device, and it has no page for the other. -/
theorem stale_only_if_told_two_replies :
    let d : Dispatcher := ⟨2, .standard⟩
    let devices : List Device := [⟨"a", .web⟩, ⟨"b", .ios⟩]
    let gone := "\x7b\"error\":\x7b\"details\":[\x7b\"errorCode\":\"UNREGISTERED\"\x7d]\x7d\x7d"
    let reply : String → Fcm.Reply := fun body => ⟨404, [], Text.Utf8.encode body.toList, true⟩
    let exchanges : Nat → List Fcm.Exchange := fun i => [[.replied (reply gone)], [.replied (reply "<html>")]].getD i []
    let moves : List Move := [.acquire 0, .acquire 1, .reply 0 (.refused .unregisteredDevice),
      .reply 1 (.refused (.rejected 404 "<html>" false none))]
    let failure : Outcome := .failed "FCM rejected the message with status 404: <html>" false
    let s : Tasks := ⟨2, [], [.finished .unregistered 1, .finished failure 1],
      [(1, some (failure, 1)), (0, some (.unregistered, 1))]⟩
    d.permits ≤ maxPermits ∧ Path d.retry (Tasks.start d.permits devices.length) moves s ∧ s.IsOver ∧
      (∀ i, answersOf i moves = (exchanges i).map (Fcm.Exchange.answer "")) ∧
      JustifiedBy devices exchanges (reports devices s.results) ∧
      reports devices s.results = [⟨⟨"a", .web⟩, .unregistered, 1⟩, ⟨⟨"b", .ios⟩, failure, 1⟩] := by
  intro d devices gone reply exchanges moves failure s
  have hp : d.permits ≤ maxPermits := by decide
  have hfails : d.retry.judge 1 (.refused (.rejected 404 "<html>" false none)) = .finish failure := by decide +kernel
  have hpath : Path d.retry (Tasks.start d.permits devices.length) moves s :=
    (((Path.single (.acquire (i := 0) rfl (by decide))).snoc (.acquire (i := 1) rfl (by decide))).snoc
      (.finish (i := 0) rfl rfl)).snoc (.finish (i := 1) rfl hfails)
  have ho : s.IsOver := by simp [s, Tasks.IsOver, Stage.isOver, Stage.result?]
  have hgone : (Fcm.Exchange.replied (reply gone)).answer "" = .refused .unregisteredDevice := by decide +kernel
  have hpage : (Fcm.Exchange.replied (reply "<html>")).answer "" = .refused (.rejected 404 "<html>" false none) := by
    decide +kernel
  have ha : ∀ i, answersOf i moves = (exchanges i).map (Fcm.Exchange.answer "") := by
    rintro (_ | _ | i)
    · simp [exchanges, hgone, moves, answersOf]
    · simp [exchanges, hpage, moves, answersOf]
    · simp [exchanges, moves, answersOf]
  have h := (stale_only_if_told d hp ⟨"http://h/send", none⟩ devices (.ofText "" "")).1 moves s s.results hpath ho
    (.refl _) exchanges "" ha
  exact ⟨hp, hpath, ho, ha, h, rfl⟩

end Dispatcher

end PushDispatch
