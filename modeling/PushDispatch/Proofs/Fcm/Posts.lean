import PushDispatch.Fcm.Client
import PushDispatch.Proofs.Dispatch.Isolation
import PushDispatch.Proofs.Fcm.Complaints

/-! The posts that a dispatch makes. For each device it is one and the same post, made until an exchange forbids
another one or the last that the policy allows is made. Whether another one may follow is read off the exchange
alone: its status and, for a busy or broken service, what its body says about the device. -/

namespace PushDispatch

namespace Fcm

/-! ### Exchanges after which another one may follow -/

/-- The text of a body; one that was cut short counts as empty. -/
def Reply.text (r : Reply) : List Char := if r.isWhole then Text.Utf8.decodeLossy r.body else []

/-- The same post may be made again: there was no connection, no reply came in time, or the service is busy or broken
and does not make the device unknown. -/
inductive Exchange.MayRetry : Exchange → Prop where
  | refused : MayRetry refused
  | timedOut : MayRetry timedOut
  | busy {r : Reply} (hstatus : r.status = 429 ∨ 500 ≤ r.status ∧ r.status < 600)
    (hbody : ¬ Complaint.NamesStale r.text) : MayRetry (replied r)

theorem mayRetry_refusal (status : Nat) (wait : Option Duration) (body : List Char) :
    (refusal status wait body).retryable = (Reply.mayRetry status && !(Complaint.read body).namesStaleDevice) := by
  unfold refusal
  by_cases h : (Complaint.read body).namesStaleDevice <;> simp [h, PushError.retryable]

/-- After success no body is worth another exchange. -/
theorem Reply.mayRetry_answer_of_isSuccess {r : Reply} (h : r.isSuccess = true) : r.answer.mayRetry = false := by
  simp only [Reply.answer, h, if_true]
  split <;> rfl

theorem Reply.mayRetry_answer_of_not_isSuccess {r : Reply} (h : r.isSuccess = false) :
    r.answer.mayRetry = (Reply.mayRetry r.status &&
      !(Complaint.read (if r.isWhole then Text.Utf8.decodeLossy r.content else [])).namesStaleDevice) := by
  simp only [Reply.answer, h, Bool.false_eq_true, if_false, Answer.mayRetry, mayRetry_refusal]

theorem Reply.isSuccess_of_mayRetry {r : Reply} (h : Reply.mayRetry r.status = true) : r.isSuccess = false := by
  simp [Reply.mayRetry] at h
  simp [Reply.isSuccess]
  omega

/-- Only the statuses 204 and 304 stand for an empty body. -/
theorem Reply.content_of_mayRetry {r : Reply} (h : Reply.mayRetry r.status = true) : r.content = r.body := by
  have : r.status ≠ 204 ∧ r.status ≠ 304 := by
    simp [Reply.mayRetry] at h
    omega
  simp [content, this]

theorem Reply.mayRetry_answer (r : Reply) :
    r.answer.mayRetry = (Reply.mayRetry r.status && !(Complaint.read r.text).namesStaleDevice) := by
  cases hm : Reply.mayRetry r.status with
  | true => rw [mayRetry_answer_of_not_isSuccess (isSuccess_of_mayRetry hm), content_of_mayRetry hm, hm, text]
  | false =>
    cases hs : r.isSuccess with
    | true => rw [mayRetry_answer_of_isSuccess hs, Bool.false_and]
    | false => rw [mayRetry_answer_of_not_isSuccess hs, hm, Bool.false_and, Bool.false_and]

/-- Status, body and retry decision agree: an answer may be followed by another send exactly if the exchange may. -/
theorem Exchange.mayRetry_answer_iff (url : String) (e : Exchange) : (e.answer url).mayRetry = true ↔ e.MayRetry := by
  constructor
  · intro h
    cases e with
    | refused => exact .refused
    | timedOut => exact .timedOut
    | closed => cases h
    | replied r =>
      rw [answer, Reply.mayRetry_answer, Bool.and_eq_true, Bool.not_eq_true', ← Bool.not_eq_true,
        ← Complaint.namesStale_iff] at h
      exact .busy (by simpa [Reply.mayRetry] using h.1) h.2
  · intro h
    cases h with
    | busy hstatus hbody =>
      rw [Complaint.namesStale_iff, Bool.not_eq_true] at hbody
      rw [answer, Reply.mayRetry_answer, hbody]
      simpa [Reply.mayRetry] using hstatus
    | _ => rfl

instance (e : Exchange) : Decidable e.MayRetry := decidable_of_iff _ (e.mayRetry_answer_iff "")

theorem Exchange.answer_ne_aborted (url : String) (e : Exchange) : e.answer url ≠ .aborted := by
  cases e with
  | replied r =>
    cases hs : r.isSuccess with
    | true => simp only [answer, Reply.answer, hs, if_true]; split <;> simp
    | false => simp [answer, Reply.answer, hs]
  | _ => simp [answer]

/-! ### Posts over a network -/

/-- The request is the body of its post and has no part in the rest of it. -/
theorem Client.post_eq {c : Client} {request : Request} {post : Post} (h : c.post request = .ok post)
    (other : Request) : c.post other = .ok { post with request := other } := by
  unfold Client.post at h ⊢
  cases hu : Url.read c.sendUrl with
  | error problem => simp [hu] at h
  | ok url =>
    simp only [hu] at h ⊢
    grind

namespace Network

variable {σ : Type} (network : Network σ)

/-- The state of a network after a number of posts. -/
def after (state : σ) (posts : List Post) : σ :=
  posts.foldl (fun state post => (network.exchange state post).2) state

/-- Exchange number `k` of the posts for a token ends as the script of the token says. Latencies may depend on
everything. -/
def Follows (state : σ) (script : String → Nat → Exchange) : Prop :=
  ∀ earlier post, (network.exchange (network.after state earlier) post).1.2 =
    script post.request.token (earlier.countP (fun sent => sent.request.token = post.request.token) + 1)

/-- The same network with a record of all posts. -/
def recording : Network (σ × List Post) where
  exchange state post :=
    let (ended, next) := network.exchange state.1 post
    (ended, next, state.2 ++ [post])

/-- The network of a script, whose state is the record of its posts. -/
def ofScript (script : String → Nat → Exchange) (latency : Nat) : Network (List Post) where
  exchange earlier post :=
    let k := earlier.countP (fun sent => sent.request.token = post.request.token) + 1
    ((latency, script post.request.token k), earlier ++ [post])

theorem follows_ofScript (script : String → Nat → Exchange) (latency : Nat) :
    (ofScript script latency).Follows [] script := by
  have hafter : ∀ posts earlier, (ofScript script latency).after earlier posts = earlier ++ posts := by
    intro posts
    induction posts with
    | nil => simp [after]
    | cons post posts ih =>
      intro earlier
      change (ofScript script latency).after (earlier ++ [post]) posts = _
      simp [ih]
  intro earlier post
  rw [hafter]
  rfl

end Network

namespace Client

variable {σ : Type} {c : Client} {network : Network σ} {state : σ} {request : Request} {post : Post}
  {posts : List Post}

theorem transport_send (h : c.post request = .ok post) (other : Request) :
    (c.transport network.recording).send (state, posts) other =
      (⟨(network.exchange state { post with request := other }).1.1,
        (network.exchange state { post with request := other }).1.2.answer post.url.text, [.sending c.sendUrl]⟩,
        (network.exchange state { post with request := other }).2, posts ++ [{ post with request := other }]) := by
  simp [transport, post_eq h, Network.recording]

/-- The record holds one post for each send. -/
theorem transport_after (h : c.post request = .ok post) (requests : List Request) (posts : List Post) :
    (c.transport network.recording).after (state, posts) requests =
      (network.after state (requests.map fun other => { post with request := other }),
        posts ++ requests.map fun other => { post with request := other }) := by
  induction requests generalizing state posts with
  | nil => simp [Network.after]
  | cons other requests ih =>
    rw [Transport.after_cons, transport_send h, ih]
    simp [Network.after]

theorem transport_follows (h : c.post request = .ok post) {script : String → Nat → Exchange}
    (hf : network.Follows state script) :
    (c.transport network.recording).Follows (state, [])
      fun token own => (script token own.length).answer post.url.text := by
  intro earlier other
  rw [transport_after h, transport_send h, hf]
  simp [List.countP_eq_length_filter, List.filter_map, Function.comp_def]

/-- The record holds for a token the posts of the requests for it. -/
theorem filter_transport_after (h : c.post request = .ok post) (requests : List Request) (token : String) :
    ((c.transport network.recording).after (state, []) requests).2.filter (fun sent => sent.request.token = token) =
      (requests.filter fun other => other.token = token).map fun other => { post with request := other } := by
  rw [transport_after h, List.nil_append, List.filter_map]
  rfl

end Client

end Fcm

/-! ### All posts of a dispatch -/

namespace Dispatcher

/-- In a dispatch to devices with tokens of their own over whatever network, each device gets one and the same post,
with the URL and the credentials of the client and the message for that device. It is made until the first exchange
after which none may follow, or as often as the policy allows, so in particular not again after success. -/
theorem posts_exact {σ : Type} (d : Dispatcher) (hp : d.permits ≤ maxPermits) (c : Fcm.Client)
    (network : Fcm.Network σ) (state : σ) (script : String → Nat → Fcm.Exchange) (hf : network.Follows state script)
    (devices : List Device) (hn : (devices.map Device.token).Nodup) (message : Message) (clock : Nat)
    {request : Fcm.Request} {post : Fcm.Post} (hpost : c.post request = .ok post) :
    ∃ x, d.dispatch (c.transport network.recording) (state, []) clock devices message = some x ∧
      (∀ sent ∈ x.service.2, ∃ device ∈ devices, sent = { post with request := .build .standard device message }) ∧
      ∀ device ∈ devices, ∃ n,
        IsLeast {k | 1 ≤ k ∧ (¬ (script device.token k).MayRetry ∨ k = max 1 d.retry.maxAttempts)} n ∧
        x.service.2.filter (fun sent => sent.request.token = device.token) =
          List.replicate n { post with request := .build .standard device message } ∧
        ∀ k reply, 1 ≤ k → script device.token k = .replied reply → reply.isSuccess → n ≤ k := by
  let t := c.transport network.recording
  have hfollows := Fcm.Client.transport_follows hpost hf
  obtain ⟨x, hx, hcomplete, hsends, hstate⟩ := d.exists_complete hp t (state, []) clock devices message
  refine ⟨x, hx, fun sent hm => ?_, fun device hm => ?_⟩
  · rw [hstate, Fcm.Client.transport_after hpost, List.nil_append, List.map_map] at hm
    obtain ⟨y, hy, rfl⟩ := List.mem_map.1 hm
    obtain ⟨device, hd, hr⟩ := hsends y hy
    exact ⟨device, List.mem_of_getElem? hd, by simp [hr]⟩
  · obtain ⟨i, hd⟩ := List.mem_iff_getElem?.1 hm
    have hbegins := begins_answersAt hfollows hn hd hsends
    obtain ⟨r, -, htells⟩ := hcomplete.2 i device hd
    have hwhole : .aborted ∉ answersAt i (t.performed (state, []) x.trace) := by
      intro ha
      obtain ⟨k, hk⟩ := List.mem_iff_getElem?.1 ha
      exact Fcm.Exchange.answer_ne_aborted _ _ (hbegins k _ hk)
    have hleast : IsLeast {k | 1 ≤ k ∧ (¬ (script device.token k).MayRetry ∨ k = max 1 d.retry.maxAttempts)} _ :=
      d.retry.isLeast_of_endsAt (htells.isLeast_length hbegins hwhole) fun k => by
        rw [replies, List.length_replicate, ← Bool.not_eq_true, Fcm.Exchange.mayRetry_answer_iff]
    refine ⟨_, hleast, ?_, fun k reply h1 hk hs => hleast.2 ⟨h1, .inl ?_⟩⟩
    · rw [hstate, Fcm.Client.filter_transport_after hpost, filter_token_eq hn hd hsends, List.map_replicate]
    · rw [hk, ← Fcm.Exchange.mayRetry_answer_iff post.url.text, Fcm.Exchange.answer,
        Fcm.Reply.mayRetry_answer_of_isSuccess hs]
      exact Bool.false_ne_true

/-- The first reply for one device comes too late and the second one reports success with an unreadable body. The service
is too busy for another device, but says that it no longer knows it, and the last device is never reached. -/
theorem posts_exact_unreadable_success :
    let gone := "\x7b\"error\":\x7b\"details\":[\x7b\"errorCode\":\"UNREGISTERED\"\x7d]\x7d\x7d"
    let script : String → Nat → Fcm.Exchange := fun token k =>
      if token = "a" then (if k = 1 then .timedOut else .replied ⟨200, [], [], true⟩)
      else if token = "b" then .replied ⟨503, [], Text.Utf8.encode gone.toList, true⟩ else .refused
    let c : Fcm.Client := ⟨"http://h/send", some "secret"⟩
    let network := Fcm.Network.ofScript script 5
    let d : Dispatcher := ⟨1, .standard⟩
    let devices : List Device := [⟨"a", .web⟩, ⟨"b", .android⟩, ⟨"c", .ios⟩]
    let message : Message := .ofText "" ""
    d.permits ≤ maxPermits ∧ network.Follows [] script ∧ (devices.map Device.token).Nodup ∧
      ∃ post, c.post (.build .standard ⟨"a", .web⟩ message) = .ok post ∧
      ∃ x, d.dispatch (c.transport network.recording) ([], []) 0 devices message = some x ∧
        x.service.2.filter (fun sent => sent.request.token = "a") =
          List.replicate 2 { post with request := .build .standard ⟨"a", .web⟩ message } ∧
        x.service.2.filter (fun sent => sent.request.token = "b") =
          List.replicate 1 { post with request := .build .standard ⟨"b", .android⟩ message } ∧
        x.service.2.filter (fun sent => sent.request.token = "c") =
          List.replicate 3 { post with request := .build .standard ⟨"c", .ios⟩ message } := by
  intro gone script c network d devices message
  have hp : d.permits ≤ maxPermits := by decide
  have hn : (devices.map Device.token).Nodup := by decide
  have hf : network.Follows [] script := Fcm.Network.follows_ofScript script 5
  have hisOk : (c.post (.build .standard ⟨"a", .web⟩ message)).isOk = true := by decide +kernel
  obtain ⟨post, hpost⟩ : ∃ post, c.post (.build .standard ⟨"a", .web⟩ message) = .ok post := by
    cases h : c.post (.build .standard ⟨"a", .web⟩ message) with
    | ok post => exact ⟨post, rfl⟩
    | error problem => simp [h, Except.isOk, Except.toBool] at hisOk
  obtain ⟨x, hx, -, h⟩ := posts_exact d hp c network [] script hf devices hn message 0 hpost
  obtain ⟨n, hleast, hposts, -⟩ := h ⟨"a", .web⟩ (by decide)
  obtain ⟨m, hleast', hposts', -⟩ := h ⟨"b", .android⟩ (by decide)
  obtain ⟨l, hleast'', hposts'', -⟩ := h ⟨"c", .ios⟩ (by decide)
  obtain rfl : n = 2 := hleast.unique ⟨⟨by decide, .inl (by decide +kernel)⟩, fun k hk => by
    obtain ⟨h1, hk⟩ := hk
    by_contra hlt
    obtain rfl : k = 1 := by omega
    exact absurd hk (by decide +kernel)⟩
  obtain rfl : m = 1 := hleast'.unique ⟨⟨le_rfl, .inl (by decide +kernel)⟩, fun k hk => hk.1⟩
  obtain rfl : l = 3 := hleast''.unique ⟨⟨by decide, .inr rfl⟩, fun k hk => by
    exact (hk.2.resolve_left (not_not.2 .refused)).ge⟩
  exact ⟨hp, hf, hn, post, hpost, x, hx, hposts, hposts', hposts''⟩

end Dispatcher

end PushDispatch
