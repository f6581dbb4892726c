import RaftBench.Lib.Machine
import RaftBench.Lib.Update

/-!
# The application API over HTTP

`app-http` has both ends of the application API of a node: a server that routes a request to a
handler, and a `Client` that sends to the leader it tracks and follows `ForwardToLeader`.  The calls
of a client share the tracked leader behind a mutex, and between them a request or its answer can be
lost at any time, so a call that has failed may still be handled later.

A call is a sequence of flights, one HTTP request each.  `accepted_at_most_once` says what holds of
every call in every interleaving: another flight starts only behind one that a node has refused
naming the leader, so no call is accepted twice, and what a call returns is what the last node has
answered.  JSON is a parameter, with the round trip that is documented of it, and raft is the answer
of a handler, which is arbitrary.
-/

namespace RaftBench.OpenRaft.AppHttp

inductive Method where
  | get
  | post
  deriving DecidableEq, Repr

/-- The handlers of a node. -/
inductive Route where
  | init
  | addLearner
  | changeMembership
  | metrics
  | getLinearizer
  | write
  | read
  | linearizableRead
  | followerRead
  deriving DecidableEq, Repr

/-- `serde_json` on the requests and the replies of the routes, and the bytes of a text.  A handler
that takes no request gets `unit`. -/
structure Wire (B Req Resp Err : Type) where
  toReq : Route → Req → B
  fromReq : Route → B → Except String Req
  toReply : Route → Except Err Resp → Except String B
  fromReply : Route → B → Except String (Except Err Resp)
  text : String → B
  unit : Req

variable {B Req Resp Err : Type}

/-- What is written is read back, `null` is the request of the two handlers without one, and the
message of a value that cannot be written is not the text of a reply. -/
structure Wire.Lawful (wire : Wire B Req Resp Err) : Prop where
  req : ∀ r q, wire.fromReq r (wire.toReq r q) = .ok q
  null : ∀ r, r = .metrics ∨ r = .getLinearizer → wire.fromReq r (wire.text "null") = .ok wire.unit
  reply : ∀ r a b, wire.toReply r a = .ok b → wire.fromReply r b = .ok a
  message : ∀ r a e, wire.toReply r a = .error e → ∀ b, wire.fromReply r (wire.text e) ≠ .ok b

/-! ## The server -/

structure Response (B : Type) where
  status : ℕ
  contentType : String
  body : B
  deriving DecidableEq, Repr

def errorResponse (wire : Wire B Req Resp Err) (status : ℕ) (message : String) : Response B :=
  ⟨status, "text/plain; charset=utf-8", wire.text message⟩

def jsonResponse (wire : Wire B Req Resp Err) (r : Route) (value : Except Err Resp) : Response B :=
  match wire.toReply r value with
  | .ok body => ⟨200, "application/json", body⟩
  | .error e => errorResponse wire 500 e

/-- The hash map of the routes. -/
abbrev Routes := List ((Method × String) × Route)

def Routes.insert (routes : Routes) (key : Method × String) (r : Route) : Routes :=
  (key, r) :: routes.filter fun entry => entry.1 ≠ key

def normalizePath (path : String) : String :=
  if path.toList.head? = some '/' then path else "/" ++ path

def Routes.post (routes : Routes) (path : String) (r : Route) : Routes :=
  routes.insert (.post, normalizePath path) r

def Routes.get (routes : Routes) (path : String) (r : Route) : Routes :=
  routes.insert (.get, normalizePath path) r

def Routes.addOpenraftRoutes (routes : Routes) : Routes :=
  routes.post "/init" .init
    |>.post "/add-learner" .addLearner
    |>.post "/change-membership" .changeMembership
    |>.get "/metrics" .metrics
    |>.get "/get_linearizer" .getLinearizer
    |>.post "/write" .write

/-- The server of a key-value node. -/
def newHttpServer : Routes :=
  Routes.addOpenraftRoutes []
    |>.post "/read" .read
    |>.post "/linearizable_read" .linearizableRead
    |>.post "/follower_read" .followerRead

/-- The handler a request gets to and what it is called with, or the response without one. -/
def handle (wire : Wire B Req Resp Err) (routes : Routes) (method : Method) (path : String)
    (body : B) : Except (Response B) (Route × Req) :=
  match routes.lookup (method, path) with
  | none => .error (errorResponse wire 404 "not found")
  | some r =>
      let body := if method = .get then wire.text "null" else body
      match wire.fromReq r body with
      | .ok req => .ok (r, req)
      | .error e => .error (errorResponse wire 400 e)

/-! ## The client -/

inductive ClientCall where
  | write
  | read
  | linearizableRead
  | linearizableReadAutoForward
  | followerRead
  | getLinearizer
  | init
  | addLearner
  | changeMembership
  | metrics
  deriving DecidableEq, Repr

def ClientCall.uri : ClientCall → String
  | .write => "write"
  | .read => "read"
  | .linearizableRead => "linearizable_read"
  | .linearizableReadAutoForward => "linearizable_read"
  | .followerRead => "follower_read"
  | .getLinearizer => "get_linearizer"
  | .init => "init"
  | .addLearner => "add-learner"
  | .changeMembership => "change-membership"
  | .metrics => "metrics"

/-- `POST` with a request, and `GET` without. -/
def ClientCall.method : ClientCall → Method
  | .getLinearizer => .get
  | .metrics => .get
  | _ => .post

/-- The `retry` that a call is sent with; `none` when it is sent without forwarding. -/
def ClientCall.retry : ClientCall → Option ℕ
  | .write => some 3
  | .linearizableRead => some 0
  | .linearizableReadAutoForward => some 3
  | .addLearner => some 0
  | .changeMembership => some 0
  | _ => none

/-- The handler a call is meant for. -/
def ClientCall.route : ClientCall → Route
  | .write => .write
  | .read => .read
  | .linearizableRead => .linearizableRead
  | .linearizableReadAutoForward => .linearizableRead
  | .followerRead => .followerRead
  | .getLinearizer => .getLinearizer
  | .init => .init
  | .addLearner => .addLearner
  | .changeMembership => .changeMembership
  | .metrics => .metrics

/-- Every call gets to the handler it is meant for. -/
lemma lookup_newHttpServer (api : ClientCall) :
    newHttpServer.lookup (api.method, "/" ++ api.uri) = some api.route := by
  cases api <;> decide

structure NodeInfo where
  raftAddr : String
  /-- the address of the API -/
  data : String
  deriving DecidableEq, Repr

structure ForwardToLeader where
  leaderId : Option UInt64
  leaderNode : Option NodeInfo
  deriving DecidableEq, Repr

inductive RpcError where
  | unreachable
  | network
  deriving DecidableEq, Repr

/-- The leader that an error names, when it has both the id and the node. -/
def newLeader (tryAsRef : Err → Option ForwardToLeader) (e : Err) : Option (UInt64 × String) :=
  match tryAsRef e with
  | some ⟨some leaderId, some leaderNode⟩ => some (leaderId, leaderNode.data)
  | _ => none

/-! ## The machine -/

/-- What came of a request at the server: the handler that ran with its request, what it returned
and the response.  A handler that panics returns nothing and the connection goes down with it. -/
structure Handled (B Req Resp Err : Type) where
  ran : Option (Route × Req) := none
  answer : Option (Except Err Resp) := none
  reply : Option (Response B) := none

/-- One HTTP request. -/
structure Flight (B Req Resp Err : Type) where
  addr : String
  method : Method
  path : String
  body : B
  handled : Option (Handled B Req Resp Err) := none

inductive Phase (Resp Err : Type) where
  /-- about to read the tracked leader -/
  | ready
  | waiting
  | returned (result : Except RpcError (Except Err Resp))

structure Call (B Req Resp Err : Type) where
  api : ClientCall
  req : Req
  /-- the retries left -/
  retry : ℕ
  earlier : List (Flight B Req Resp Err) := []
  current : Option (Flight B Req Resp Err) := none
  phase : Phase Resp Err := .ready

def Call.new (api : ClientCall) (req : Req) : Call B Req Resp Err :=
  { api := api, req := req, retry := api.retry.getD 0 }

structure World (B Req Resp Err : Type) where
  leader : UInt64 × String
  calls : List (Call B Req Resp Err) := []

inductive Event (Req Resp Err : Type) where
  | call (api : ClientCall) (req : Req)
  | send (k : ℕ)
  /-- nobody listens at the address -/
  | connectFails (k : ℕ)
  /-- the caller gives the request up, whatever has become of it -/
  | fails (k : ℕ)
  /-- the request arrives; `answer` is what the handler returns, if one runs and does not panic -/
  | arrives (k : ℕ) (answer : Option (Except Err Resp))
  | receive (k : ℕ)

section Steps

variable (wire : Wire B Req Resp Err) (tryAsRef : Err → Option ForwardToLeader)

/-- A `GET` has no body. -/
def requestBody (api : ClientCall) (req : Req) : B :=
  if api.method = .get then wire.text "" else wire.toReq api.route req

def Call.send (leader : UInt64 × String) (c : Call B Req Resp Err) :
    Option (Call B Req Resp Err) :=
  match c.phase with
  | .ready => some { c with
      current := some {
        addr := leader.2, method := c.api.method, path := "/" ++ c.api.uri
        body := requestBody wire c.api c.req }
      phase := .waiting }
  | _ => none

def Call.connectFails (c : Call B Req Resp Err) : Option (Call B Req Resp Err) :=
  match c.phase, c.current with
  | .waiting, some f =>
      if f.handled.isNone then some { c with
        current := some { f with handled := some {} }, phase := .returned (.error .unreachable) }
      else none
  | _, _ => none

def Call.fails (c : Call B Req Resp Err) : Option (Call B Req Resp Err) :=
  match c.phase with
  | .waiting => some { c with phase := .returned (.error .network) }
  | _ => none

/-- What a server makes of a request. -/
def serve (f : Flight B Req Resp Err) (answer : Option (Except Err Resp)) :
    Handled B Req Resp Err :=
  match handle wire newHttpServer f.method f.path f.body with
  | .error resp => { reply := some resp }
  | .ok (r, req) => ⟨some (r, req), answer, answer.map (jsonResponse wire r)⟩

def Call.arrives (answer : Option (Except Err Resp)) (c : Call B Req Resp Err) :
    Option (Call B Req Resp Err) :=
  c.current.bind fun f =>
    if f.handled.isNone then
      some { c with current := some { f with handled := some (serve wire f answer) } }
    else none

/-- The body of the loop of `send_with_forwarding` behind `send`, with the leader to track. -/
def Call.next (c : Call B Req Resp Err) (f : Flight B Req Resp Err) :
    Except Err Resp → Call B Req Resp Err × Option (UInt64 × String)
  | .ok x => ({ c with phase := .returned (.ok (.ok x)) }, none)
  | .error e =>
      match c.api.retry, newLeader tryAsRef e with
      | some _, some leader =>
          if c.retry > 0 then ({ c with
            retry := c.retry - 1, earlier := c.earlier ++ [f], current := none
            phase := .ready }, some leader)
          else ({ c with phase := .returned (.ok (.error e)) }, some leader)
      | _, _ => ({ c with phase := .returned (.ok (.error e)) }, none)

def Call.receive (c : Call B Req Resp Err) :
    Option (Call B Req Resp Err × Option (UInt64 × String)) :=
  match c.phase, c.current with
  | .waiting, some f =>
      (f.handled.bind Handled.reply).map fun resp =>
        match wire.fromReply c.api.route resp.body with
        | .ok res => c.next tryAsRef f res
        | .error _ => ({ c with phase := .returned (.error .network) }, none)
  | _, _ => none

/-- A call takes a step, and may track a new leader. -/
def World.step (w : World B Req Resp Err) (k : ℕ)
    (f : Call B Req Resp Err → Option (Call B Req Resp Err × Option (UInt64 × String))) :
    Option (World B Req Resp Err) :=
  w.calls[k]?.bind fun c => (f c).map fun (c', leader) =>
    ⟨leader.getD w.leader, w.calls.set k c'⟩

def clientStep (w : World B Req Resp Err) : Event Req Resp Err → Option (World B Req Resp Err)
  | .call api req => some { w with
      calls := w.calls ++ [.new api req] }
  | .send k => w.step k fun c => (c.send wire w.leader).map (·, none)
  | .connectFails k => w.step k fun c => c.connectFails.map (·, none)
  | .fails k => w.step k fun c => c.fails.map (·, none)
  | .arrives k answer => w.step k fun c => (c.arrives wire answer).map (·, none)
  | .receive k => w.step k (Call.receive wire tryAsRef)

def client : Machine (World B Req Resp Err) (Event Req Resp Err) where
  step := clientStep wire tryAsRef

end Steps

/-! ## Flights -/

def Flight.answer (f : Flight B Req Resp Err) : Option (Except Err Resp) :=
  f.handled.bind Handled.answer

/-- The handler has returned `Ok`. -/
def Flight.accepted (f : Flight B Req Resp Err) : Bool :=
  match f.answer with
  | some (.ok _) => true
  | _ => false

/-- The handler has refused the request and named the leader. -/
def Flight.Forwarded (tryAsRef : Err → Option ForwardToLeader) (f : Flight B Req Resp Err) : Prop :=
  ∃ e leader, f.answer = some (.error e) ∧ newLeader tryAsRef e = some leader

lemma Flight.Forwarded.accepted {tryAsRef : Err → Option ForwardToLeader}
    {f : Flight B Req Resp Err} (h : f.Forwarded tryAsRef) : f.accepted = false := by
  obtain ⟨e, -, hanswer, -⟩ := h
  rw [Flight.accepted, hanswer]

/-- What a handler is called with. -/
def handlerRequest (wire : Wire B Req Resp Err) (api : ClientCall) (req : Req) : Req :=
  if api.method = .get then wire.unit else req

/-- The flight carries the call; if it is handled, by the handler it is meant for, and the response
is what that returns. -/
structure Flight.Carries (wire : Wire B Req Resp Err) (api : ClientCall) (req : Req)
    (f : Flight B Req Resp Err) : Prop where
  method : f.method = api.method
  path : f.path = "/" ++ api.uri
  body : f.body = requestBody wire api req
  ran : ∀ h, f.handled = some h →
    h.ran = none ∨ h.ran = some (api.route, handlerRequest wire api req)
  reply : ∀ h, f.handled = some h → h.reply = h.answer.map (jsonResponse wire api.route)

section Wire

variable {wire : Wire B Req Resp Err} {api : ClientCall} {req : Req} {f : Flight B Req Resp Err}

/-- The server understands what the client sends. -/
lemma handle_requestBody (hwire : wire.Lawful) (api : ClientCall) (req : Req) :
    handle wire newHttpServer api.method ("/" ++ api.uri) (requestBody wire api req)
      = .ok (api.route, handlerRequest wire api req) := by
  simp only [handle, lookup_newHttpServer, requestBody, handlerRequest]
  split_ifs with hget
  · have hroute : api.route = .metrics ∨ api.route = .getLinearizer := by
      revert hget
      cases api <;> decide
    rw [hwire.null _ hroute]
  · rw [hwire.req]

lemma Flight.Carries.serve (hwire : wire.Lawful) (h : f.Carries wire api req)
    (answer : Option (Except Err Resp)) :
    serve wire f answer = ⟨some (api.route, handlerRequest wire api req), answer,
      answer.map (jsonResponse wire api.route)⟩ := by
  rw [AppHttp.serve, h.method, h.path, h.body, handle_requestBody hwire]

/-- The client understands what the server answers. -/
lemma Flight.Carries.answer_eq (hwire : wire.Lawful) (h : f.Carries wire api req)
    {resp : Response B} (hreply : f.handled.bind Handled.reply = some resp) {res : Except Err Resp}
    (hres : wire.fromReply api.route resp.body = .ok res) : f.answer = some res := by
  obtain ⟨handled, hhandled, hreply⟩ := Option.bind_eq_some_iff.mp hreply
  rw [h.reply handled hhandled] at hreply
  obtain ⟨answer, hanswer, rfl⟩ := Option.map_eq_some_iff.mp hreply
  rw [Flight.answer, hhandled, Option.bind_some, hanswer]
  unfold jsonResponse at hres
  split at hres
  · next body hbody =>
      rw [hwire.reply _ _ _ hbody] at hres
      exact congrArg some (Except.ok.inj hres)
  · next e he => exact absurd hres (hwire.message _ _ _ he res)

end Wire

/-! ## One call -/

/-- The flights of a call, in order. -/
def Call.flights (c : Call B Req Resp Err) : List (Flight B Req Resp Err) :=
  c.earlier ++ c.current.toList

structure CallInv (wire : Wire B Req Resp Err) (tryAsRef : Err → Option ForwardToLeader)
    (c : Call B Req Resp Err) : Prop where
  carries : ∀ f ∈ c.flights, f.Carries wire c.api c.req
  forwarded : ∀ f ∈ c.earlier, f.Forwarded tryAsRef
  budget : c.earlier.length + c.retry = c.api.retry.getD 0
  ready : c.phase = .ready → c.current = none
  returned : ∀ res, c.phase = .returned (.ok res) → ∃ f, c.current = some f ∧ f.answer = some res
  refused : ∀ e, c.phase = .returned (.ok (.error e)) → newLeader tryAsRef e ≠ none → c.retry = 0

/-- What one step of a call keeps: the invariant, every answer, and that a flight is new only if it
goes to `addr`. -/
structure Advances (wire : Wire B Req Resp Err) (tryAsRef : Err → Option ForwardToLeader)
    (addr : String) (c c' : Call B Req Resp Err) : Prop where
  inv : CallInv wire tryAsRef c'
  answers : ∀ f ∈ c.flights, ∀ a, f.answer = some a → ∃ f' ∈ c'.flights, f'.answer = some a
  sent : ∀ f ∈ c'.flights, (∃ g ∈ c.flights, g.addr = f.addr) ∨ f.addr = addr

section Call

variable {wire : Wire B Req Resp Err} {tryAsRef : Err → Option ForwardToLeader}
  {c c' : Call B Req Resp Err} {leader : UInt64 × String} {f : Flight B Req Resp Err}

lemma mem_flights : f ∈ c.flights ↔ f ∈ c.earlier ∨ c.current = some f := by
  rw [Call.flights, List.mem_append, Option.mem_toList]

lemma callInv_new (api : ClientCall) (req : Req) :
    CallInv wire tryAsRef (.new api req) where
  carries := nofun
  forwarded := nofun
  budget := Nat.zero_add _
  ready _ := rfl
  returned := nofun
  refused := nofun

lemma CallInv.send (h : CallInv wire tryAsRef c) (hstep : c.send wire leader = some c') :
    Advances wire tryAsRef leader.2 c c' := by
  unfold Call.send at hstep
  split at hstep
  · next hphase =>
      cases hstep
      have hnone := h.ready hphase
      refine ⟨⟨?_, h.forwarded, h.budget, nofun, nofun, nofun⟩, ?_, ?_⟩
      · intro f hf
        rcases mem_flights.mp hf with hf | hf
        · exact h.carries f (mem_flights.mpr (.inl hf))
        · cases hf
          exact ⟨rfl, rfl, rfl, nofun, nofun⟩
      · intro f hf a ha
        rcases mem_flights.mp hf with hf | hf
        · exact ⟨f, mem_flights.mpr (.inl hf), ha⟩
        · cases hnone.symm.trans hf
      · intro f hf
        rcases mem_flights.mp hf with hf | hf
        · exact .inl ⟨f, mem_flights.mpr (.inl hf), rfl⟩
        · cases hf
          exact .inr rfl
  · cases hstep

/-- The current flight is handled. -/
lemma CallInv.handled (h : CallInv wire tryAsRef c) (hcurrent : c.current = some f)
    (hnone : f.handled = none) {handled : Handled B Req Resp Err}
    (hcarries : Flight.Carries wire c.api c.req { f with handled := some handled })
    {phase : Phase Resp Err} (hready : phase ≠ .ready)
    (hreturned : ∀ res, phase ≠ .returned (.ok res)) (addr : String) :
    Advances wire tryAsRef addr c
      { c with current := some { f with handled := some handled }, phase := phase } := by
  refine ⟨⟨?_, h.forwarded, h.budget, fun hphase => absurd hphase hready,
    fun res hphase => absurd hphase (hreturned res),
    fun e hphase => absurd hphase (hreturned _)⟩, ?_, ?_⟩
  · intro g hg
    rcases mem_flights.mp hg with hg | hg
    · exact h.carries g (mem_flights.mpr (.inl hg))
    · cases hg
      exact hcarries
  · intro g hg a ha
    rcases mem_flights.mp hg with hg | hg
    · exact ⟨g, mem_flights.mpr (.inl hg), ha⟩
    · obtain rfl := Option.some.inj (hcurrent.symm.trans hg)
      rw [Flight.answer, hnone] at ha
      cases ha
  · intro g hg
    rcases mem_flights.mp hg with hg | hg
    · exact .inl ⟨g, mem_flights.mpr (.inl hg), rfl⟩
    · cases hg
      exact .inl ⟨f, mem_flights.mpr (.inr hcurrent), rfl⟩

/-- The call returns. -/
lemma CallInv.returns (h : CallInv wire tryAsRef c)
    {result : Except RpcError (Except Err Resp)}
    (hreturned : ∀ res, result = .ok res → ∃ f, c.current = some f ∧ f.answer = some res)
    (hrefused : ∀ e, result = .ok (.error e) → newLeader tryAsRef e ≠ none → c.retry = 0)
    (addr : String) : Advances wire tryAsRef addr c { c with phase := .returned result } where
  inv := ⟨h.carries, h.forwarded, h.budget, nofun,
    fun res hphase => hreturned res (Phase.returned.inj hphase),
    fun e hphase => hrefused e (Phase.returned.inj hphase)⟩
  answers f hf _ ha := ⟨f, hf, ha⟩
  sent f hf := .inl ⟨f, hf, rfl⟩

lemma CallInv.connectFails (h : CallInv wire tryAsRef c) (hstep : c.connectFails = some c')
    (addr : String) : Advances wire tryAsRef addr c c' := by
  unfold Call.connectFails at hstep
  split at hstep
  · next f _ hcurrent =>
      split_ifs at hstep with hnone
      cases hstep
      have hcarries := h.carries f (mem_flights.mpr (.inr hcurrent))
      refine h.handled hcurrent (Option.isNone_iff_eq_none.mp hnone) ?_ ?_ ?_ addr
      rotate_left
      · nofun
      · nofun
      refine ⟨hcarries.method, hcarries.path, hcarries.body, ?_, ?_⟩
      · rintro handled hhandled
        cases hhandled
        exact .inl rfl
      · rintro handled hhandled
        cases hhandled
        rfl
  · cases hstep

lemma CallInv.fails (h : CallInv wire tryAsRef c) (hstep : c.fails = some c') (addr : String) :
    Advances wire tryAsRef addr c c' := by
  unfold Call.fails at hstep
  split at hstep
  · cases hstep
    refine h.returns ?_ ?_ addr
    · nofun
    · nofun
  · cases hstep

lemma CallInv.arrives (hwire : wire.Lawful) (h : CallInv wire tryAsRef c)
    {answer : Option (Except Err Resp)} (hstep : c.arrives wire answer = some c')
    (addr : String) : Advances wire tryAsRef addr c c' := by
  obtain ⟨f, hcurrent, hstep⟩ := Option.bind_eq_some_iff.mp hstep
  split_ifs at hstep with hnone
  cases hstep
  have hhandled := Option.isNone_iff_eq_none.mp hnone
  have hcarries := h.carries f (mem_flights.mpr (.inr hcurrent))
  have hready : c.phase ≠ .ready := fun hphase => by cases (h.ready hphase).symm.trans hcurrent
  -- the answer of a call that has returned one is not outstanding
  have hreturned : ∀ res, c.phase ≠ .returned (.ok res) := by
    intro res hphase
    obtain ⟨g, hg, hanswer⟩ := h.returned res hphase
    obtain rfl := Option.some.inj (hcurrent.symm.trans hg)
    rw [Flight.answer, hhandled] at hanswer
    cases hanswer
  refine h.handled hcurrent hhandled ?_ hready hreturned addr
  refine ⟨hcarries.method, hcarries.path, hcarries.body, ?_, ?_⟩
  · rintro handled hserve
    cases hserve
    rw [hcarries.serve hwire]
    exact .inr rfl
  · rintro handled hserve
    cases hserve
    rw [hcarries.serve hwire]

/-- The call goes on to the leader. -/
lemma CallInv.forwards (h : CallInv wire tryAsRef c) (hcurrent : c.current = some f)
    (hforwarded : f.Forwarded tryAsRef) (hleft : 0 < c.retry) (addr : String) :
    Advances wire tryAsRef addr c { c with
      retry := c.retry - 1, earlier := c.earlier ++ [f], current := none, phase := .ready } := by
  have hflights : ∀ g, g ∈ c.earlier ++ [f] ++ [] ↔ g ∈ c.flights := by
    intro g
    rw [List.append_nil, Call.flights, hcurrent]
    rfl
  refine ⟨⟨fun g hg => h.carries g ((hflights g).mp hg), List.forall_concat h.forwarded hforwarded,
    ?_, fun _ => rfl, nofun, nofun⟩, ?_, ?_⟩
  · have hbudget := h.budget
    simp only [List.length_append, List.length_singleton]
    omega
  · intro g hg a ha
    exact ⟨g, (hflights g).mpr hg, ha⟩
  · intro g hg
    exact .inl ⟨g, (hflights g).mp hg, rfl⟩

/-- Receiving an answer; a leader that is tracked from now on has been named by it. -/
lemma CallInv.receive (hwire : wire.Lawful) (h : CallInv wire tryAsRef c)
    {named : Option (UInt64 × String)} (hstep : c.receive wire tryAsRef = some (c', named))
    (addr : String) :
    Advances wire tryAsRef addr c c' ∧ ∀ leader, named = some leader →
      ∃ f ∈ c.flights, ∃ e, f.answer = some (.error e) ∧ newLeader tryAsRef e = some leader := by
  unfold Call.receive at hstep
  split at hstep
  · next f _ hcurrent =>
      obtain ⟨resp, hreply, hstep⟩ := Option.map_eq_some_iff.mp hstep
      have hmem := mem_flights.mpr (.inr hcurrent)
      split at hstep
      · next res hres =>
          have hanswer := (h.carries f hmem).answer_eq hwire hreply hres
          have hreturned : ∀ res', (Except.ok res : Except RpcError _) = .ok res' →
              ∃ f, c.current = some f ∧ f.answer = some res' := by
            rintro res' ⟨⟩
            exact ⟨f, hcurrent, hanswer⟩
          unfold Call.next at hstep
          split at hstep
          · cases hstep
            refine ⟨h.returns hreturned ?_ addr, ?_⟩
            · nofun
            · nofun
          · next e =>
              split at hstep
              · next leader hretry hleader =>
                  have hnamed : ∀ l, some leader = some l → ∃ f ∈ c.flights, ∃ e,
                      f.answer = some (.error e) ∧ newLeader tryAsRef e = some l := by
                    rintro l ⟨⟩
                    exact ⟨f, hmem, e, hanswer, hleader⟩
                  split_ifs at hstep with hleft
                  · cases hstep
                    exact ⟨h.forwards hcurrent ⟨e, leader, hanswer, hleader⟩ hleft addr, hnamed⟩
                  · cases hstep
                    refine ⟨h.returns hreturned ?_ addr, hnamed⟩
                    intro _ _ _
                    exact Nat.eq_zero_of_not_pos hleft
              · next hnone =>
                  cases hstep
                  refine ⟨h.returns hreturned ?_ addr, nofun⟩
                  rintro e' ⟨⟩ hleader
                  obtain ⟨leader, hleader⟩ := Option.ne_none_iff_exists'.mp hleader
                  -- a call that is sent without forwarding has no retries to begin with
                  have hbudget := h.budget
                  cases hretry : c.api.retry with
                  | none =>
                      rw [hretry, Option.getD_none] at hbudget
                      exact (Nat.add_eq_zero_iff.mp hbudget).2
                  | some n => exact absurd hleader (hnone n leader hretry)
      · cases hstep
        refine ⟨h.returns ?_ ?_ addr, ?_⟩
        · nofun
        · nofun
        · nofun
  · cases hstep

end Call

/-! ## Every interleaving -/

/-- The address the client started with, or one that a node has named as the leader's. -/
def World.Named (tryAsRef : Err → Option ForwardToLeader) (start : String)
    (w : World B Req Resp Err) (addr : String) : Prop :=
  addr = start ∨ ∃ c ∈ w.calls, ∃ f ∈ c.flights, ∃ e id,
    f.answer = some (.error e) ∧ newLeader tryAsRef e = some (id, addr)

structure WorldInv (wire : Wire B Req Resp Err) (tryAsRef : Err → Option ForwardToLeader)
    (start : String) (w : World B Req Resp Err) : Prop where
  calls : ∀ c ∈ w.calls, CallInv wire tryAsRef c
  leader : w.Named tryAsRef start w.leader.2
  flights : ∀ c ∈ w.calls, ∀ f ∈ c.flights, w.Named tryAsRef start f.addr

section World

variable {wire : Wire B Req Resp Err} {tryAsRef : Err → Option ForwardToLeader}
  {w w' : World B Req Resp Err} {start addr : String} {k : ℕ} {c c' : Call B Req Resp Err}

lemma World.Named.mono (h : w.Named tryAsRef start addr)
    (hanswers : ∀ c ∈ w.calls, ∀ f ∈ c.flights, ∀ a, f.answer = some a →
      ∃ c' ∈ w'.calls, ∃ f' ∈ c'.flights, f'.answer = some a) :
    w'.Named tryAsRef start addr := by
  rcases h with rfl | ⟨c, hc, f, hf, e, id, hanswer, hleader⟩
  · exact .inl rfl
  · obtain ⟨c', hc', f', hf', hanswer'⟩ := hanswers c hc f hf _ hanswer
    exact .inr ⟨c', hc', f', hf', e, id, hanswer', hleader⟩

lemma worldInv_init (leader : UInt64 × String) :
    WorldInv wire tryAsRef leader.2 { leader := leader } where
  calls := by simp
  leader := .inl rfl
  flights := by simp

/-- One call moves. -/
lemma WorldInv.advance (h : WorldInv wire tryAsRef start w) (found : w.calls[k]? = some c)
    (hadvances : Advances wire tryAsRef w.leader.2 c c') {named : Option (UInt64 × String)}
    (hnamed : ∀ leader, named = some leader →
      ∃ f ∈ c.flights, ∃ e, f.answer = some (.error e) ∧ newLeader tryAsRef e = some leader) :
    WorldInv wire tryAsRef start ⟨named.getD w.leader, w.calls.set k c'⟩ := by
  have hlt : k < w.calls.length := (List.getElem?_eq_some_iff.mp found).1
  have hmem : c ∈ w.calls := List.mem_of_getElem? found
  have hmem' : c' ∈ w.calls.set k c' := List.mem_set hlt c'
  have hanswers : ∀ d ∈ w.calls, ∀ f ∈ d.flights, ∀ a, f.answer = some a →
      ∃ d' ∈ w.calls.set k c', ∃ f' ∈ d'.flights, f'.answer = some a := by
    intro d hd f hf a ha
    obtain ⟨j, hj⟩ := List.getElem?_of_mem hd
    by_cases hjk : k = j
    · subst hjk
      obtain rfl := Option.some.inj (found.symm.trans hj)
      obtain ⟨f', hf', ha'⟩ := hadvances.answers f hf a ha
      exact ⟨c', hmem', f', hf', ha'⟩
    · refine ⟨d, List.mem_of_getElem? (i := j) ?_, f, hf, ha⟩
      rw [List.getElem?_set_ne hjk, hj]
  refine ⟨List.forall_set h.calls hadvances.inv k, ?_, ?_⟩
  · cases named with
    | none => exact h.leader.mono hanswers
    | some leader =>
        obtain ⟨f, hf, e, hanswer, hleader⟩ := hnamed leader rfl
        obtain ⟨f', hf', hanswer'⟩ := hadvances.answers f hf _ hanswer
        exact .inr ⟨c', hmem', f', hf', e, leader.1, hanswer', hleader⟩
  · refine List.forall_set (fun d hd f hf => (h.flights d hd f hf).mono hanswers) ?_ k
    intro f hf
    rcases hadvances.sent f hf with ⟨g, hg, haddr⟩ | haddr
    · rw [← haddr]
      exact (h.flights c hmem g hg).mono hanswers
    · rw [haddr]
      exact h.leader.mono hanswers

lemma step_eq_some
    {f : Call B Req Resp Err → Option (Call B Req Resp Err × Option (UInt64 × String))}
    (h : w.step k f = some w') :
    ∃ c c' named, w.calls[k]? = some c ∧ f c = some (c', named) ∧
      w' = ⟨named.getD w.leader, w.calls.set k c'⟩ := by
  obtain ⟨c, hc, h⟩ := Option.bind_eq_some_iff.mp h
  obtain ⟨⟨c', named⟩, hf, rfl⟩ := Option.map_eq_some_iff.mp h
  exact ⟨c, c', named, hc, hf, rfl⟩

lemma WorldInv.quiet (h : WorldInv wire tryAsRef start w)
    {f : Call B Req Resp Err → Option (Call B Req Resp Err)}
    (hstep : w.step k (fun c => (f c).map (·, none)) = some w')
    (hadvances : ∀ c c', CallInv wire tryAsRef c → f c = some c' →
      Advances wire tryAsRef w.leader.2 c c') : WorldInv wire tryAsRef start w' := by
  obtain ⟨c, c', named, found, hf, rfl⟩ := step_eq_some hstep
  obtain ⟨c'', hc'', heq⟩ := Option.map_eq_some_iff.mp hf
  cases heq
  exact h.advance found
    (hadvances c c' (h.calls c (List.mem_of_getElem? found)) hc'') nofun

/-- **Every step keeps the invariant.** -/
lemma worldInv_step (hwire : wire.Lawful) (h : WorldInv wire tryAsRef start w)
    {e : Event Req Resp Err} (hstep : (client wire tryAsRef).step w e = some w') :
    WorldInv wire tryAsRef start w' := by
  simp only [client] at hstep
  cases e with
  | call api req =>
      simp only [clientStep] at hstep
      cases hstep
      have hanswers : ∀ c ∈ w.calls, ∀ f ∈ c.flights, ∀ a, f.answer = some a →
          ∃ c' ∈ w.calls ++ [.new api req], ∃ f' ∈ c'.flights, f'.answer = some a :=
        fun c hc f hf _ ha => ⟨c, List.mem_append_left _ hc, f, hf, ha⟩
      exact ⟨List.forall_concat h.calls (callInv_new api req), h.leader.mono hanswers,
        List.forall_concat (fun c hc f hf => (h.flights c hc f hf).mono hanswers) nofun⟩
  | send k =>
      simp only [clientStep] at hstep
      exact h.quiet hstep fun c c' hc hsend => hc.send hsend
  | connectFails k =>
      simp only [clientStep] at hstep
      exact h.quiet hstep fun c c' hc hfails => hc.connectFails hfails _
  | fails k =>
      simp only [clientStep] at hstep
      exact h.quiet hstep fun c c' hc hfails => hc.fails hfails _
  | arrives k answer =>
      simp only [clientStep] at hstep
      exact h.quiet hstep fun c c' hc harrives => hc.arrives hwire harrives _
  | receive k =>
      simp only [clientStep] at hstep
      obtain ⟨c, c', named, found, hreceive, rfl⟩ := step_eq_some hstep
      obtain ⟨hadvances, hnamed⟩ :=
        (h.calls c (List.mem_of_getElem? found)).receive hwire hreceive w.leader.2
      exact h.advance found hadvances hnamed

end World

lemma CallInv.countP_accepted {wire : Wire B Req Resp Err}
    {tryAsRef : Err → Option ForwardToLeader} {c : Call B Req Resp Err}
    (h : CallInv wire tryAsRef c) :
    c.flights.countP Flight.accepted = c.current.toList.countP Flight.accepted := by
  have hearlier : c.earlier.countP Flight.accepted = 0 :=
    List.countP_eq_zero.mpr fun f hf => by simp [(h.forwarded f hf).accepted]
  rw [Call.flights, List.countP_append, hearlier, Nat.zero_add]

/-- **What holds of every call**, in every interleaving of any number of them and whatever the nodes
answer and the network loses.  A call is sent at most once more than it has retries; a request goes
to the address the client started with or to one a node has named, and runs no other handler than
its own; and not more than one of them is accepted.  What a call returns is what one of its handlers
has returned, and when that is an error none was accepted, and if it names the leader the retries
are used up. -/
theorem accepted_at_most_once (wire : Wire B Req Resp Err) (hwire : wire.Lawful)
    (tryAsRef : Err → Option ForwardToLeader) (leader : UInt64 × String)
    (es : List (Event Req Resp Err)) (w : World B Req Resp Err)
    (hrun : (client wire tryAsRef).run { leader := leader } es = some w) :
    ∀ c ∈ w.calls,
      c.flights.length ≤ c.api.retry.getD 0 + 1 ∧
      (∀ f ∈ c.flights, w.Named tryAsRef leader.2 f.addr ∧ ∀ h ∈ f.handled,
        h.ran = none ∨ h.ran = some (c.api.route, handlerRequest wire c.api c.req)) ∧
      c.flights.countP Flight.accepted ≤ 1 ∧
      (∀ res, c.phase = .returned (.ok res) → ∃ f ∈ c.flights, f.answer = some res) ∧
      ∀ e, c.phase = .returned (.ok (.error e)) →
        c.flights.countP Flight.accepted = 0 ∧
          (newLeader tryAsRef e ≠ none → c.flights.length = c.api.retry.getD 0 + 1) := by
  have hinv : WorldInv wire tryAsRef leader.2 w := Machine.invariant
    (fun _ _ _ hw hstep => worldInv_step hwire hw hstep) (worldInv_init leader) hrun
  intro c hc
  have h := hinv.calls c hc
  have hbudget := h.budget
  have hlength : c.flights.length = c.earlier.length + c.current.toList.length :=
    List.length_append
  have hcurrent : c.current.toList.length ≤ 1 := by
    cases c.current <;> simp
  refine ⟨by omega, ?_, ?_, ?_, ?_⟩
  · intro f hf
    exact ⟨hinv.flights c hc f hf, (h.carries f hf).ran⟩
  · rw [h.countP_accepted]
    exact Nat.le_trans List.countP_le_length hcurrent
  · intro res hphase
    obtain ⟨f, hf, hanswer⟩ := h.returned res hphase
    exact ⟨f, mem_flights.mpr (.inr hf), hanswer⟩
  · intro e hphase
    obtain ⟨f, hf, hanswer⟩ := h.returned _ hphase
    rw [h.countP_accepted, hf]
    refine ⟨?_, fun hleader => ?_⟩
    · simp [Flight.accepted, hanswer]
    · have hretry := h.refused e hphase hleader
      rw [hlength, hf, Option.toList_some, List.length_singleton]
      omega

/-! ### Two writes -/

inductive SampleError where
  | forward
  | quorumNotEnough
  deriving DecidableEq, Repr

/-- `serde_json` where a request is an `Option<bool>` and a reply a `bool`. -/
def sampleWire : Wire String (Option Bool) Bool SampleError where
  toReq
    | _, none => "null"
    | _, some true => "true"
    | _, some false => "false"
  fromReq _ body :=
    if body = "null" then .ok none
    else if body = "true" then .ok (some true)
    else if body = "false" then .ok (some false)
    else .error "expected value at line 1 column 1"
  toReply
    | _, .ok true => .ok "\x7b\"Ok\":true\x7d"
    | _, .ok false => .ok "\x7b\"Ok\":false\x7d"
    | _, .error .forward => .ok "\x7b\"Err\":\"Forward\"\x7d"
    | _, .error .quorumNotEnough => .ok "\x7b\"Err\":\"QuorumNotEnough\"\x7d"
  fromReply _ body :=
    if body = "\x7b\"Ok\":true\x7d" then .ok (.ok true)
    else if body = "\x7b\"Ok\":false\x7d" then .ok (.ok false)
    else if body = "\x7b\"Err\":\"Forward\"\x7d" then .ok (.error .forward)
    else if body = "\x7b\"Err\":\"QuorumNotEnough\"\x7d" then .ok (.error .quorumNotEnough)
    else .error "expected value at line 1 column 1"
  text message := message
  unit := none

lemma sampleWire_lawful : sampleWire.Lawful where
  req r q := by
    cases q with
    | none => rfl
    | some b => cases b <;> rfl
  null _ _ := rfl
  reply r a b h := by
    cases a with
    | ok x => cases x <;> cases h <;> rfl
    | error e => cases e <;> cases h <;> rfl
  message r a e h := by
    cases a with
    | ok x => cases x <;> cases h
    | error e => cases e <;> cases h

def sampleForward : SampleError → Option ForwardToLeader
  | .forward => some ⟨some 2, some ⟨"n2:22001", "n2:21001"⟩⟩
  | .quorumNotEnough => none

/-- The first write is forwarded and accepted by the second node.  The second one is given up, and
arrives afterwards. -/
def sampleCalls : List (Event (Option Bool) Bool SampleError) :=
  [.call .write (some true), .call .write (some false), .send 0, .send 1,
    .arrives 0 (some (.error .forward)), .fails 1, .receive 0, .send 0,
    .arrives 0 (some (.ok true)), .arrives 1 (some (.ok false)), .receive 0]

theorem accepted_at_most_once_sample :
    ∃ w, (client sampleWire sampleForward).run { leader := (1, "n1:21001") } sampleCalls = some w ∧
      w.calls.map (fun c => c.flights.map Flight.addr)
        = [["n1:21001", "n2:21001"], ["n1:21001"]] ∧
      w.calls.map (fun c => c.flights.map Flight.accepted) = [[false, true], [true]] ∧
      ∀ c ∈ w.calls, c.flights.length ≤ 4 ∧ c.flights.countP Flight.accepted ≤ 1 := by
  have hend : ((client sampleWire sampleForward).run { leader := (1, "n1:21001") }
      sampleCalls).any (fun w =>
        decide (w.calls.map (fun c => c.flights.map Flight.addr)
          = [["n1:21001", "n2:21001"], ["n1:21001"]]) &&
        decide (w.calls.map (fun c => c.flights.map Flight.accepted) = [[false, true], [true]]) &&
        w.calls.all fun c => decide (c.api = .write)) = true := by
    decide +kernel
  obtain ⟨w, hrun, hw⟩ := (Option.any_eq_true _ _).mp hend
  simp only [Bool.and_eq_true, decide_eq_true_eq, List.all_eq_true] at hw
  obtain ⟨⟨haddr, haccepted⟩, hwrite⟩ := hw
  refine ⟨w, hrun, haddr, haccepted, fun c hc => ?_⟩
  obtain ⟨hlength, -, hcount, -⟩ := accepted_at_most_once sampleWire sampleWire_lawful
    sampleForward (1, "n1:21001") sampleCalls w hrun c hc
  rw [hwrite c hc] at hlength
  exact ⟨hlength, hcount⟩

end RaftBench.OpenRaft.AppHttp
