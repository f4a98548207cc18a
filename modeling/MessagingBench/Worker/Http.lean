import MessagingBench.Relay.State

/-!
# Requests of a worker to the services

The HTTP endpoints that workers use (`bin/ds.rs`, `bin/message_relay.rs`), and the
classification of a response by the request helpers of `worker_api.rs` under the
retry loop of `http_retry.rs`. All helpers share one shape and differ in the text of
their failure and in whether a conflict is a result.
-/

namespace MessagingBench.Worker

open Delivery Relay

inductive Request
  | publishKeyPackage (owner : String) (body : Bytes)
  | fetchKeyPackage (owner : String)
  | putGroupState (groupId : String) (epoch : Epoch) (members : List String)
  | publishGroupCommit (groupId sender : String) (epoch : Epoch) (body : Bytes)
  | fetchPendingCommit (recipient : String)
  | ackCommit (recipient deliveryId : String)
  | fetchPendingCommits (client : String) (afterEpoch : Epoch)
  | publishWelcome (recipient : String) (body : Bytes)
  | fetchWelcome (recipient : String)
  | publishApplicationMessage (groupId sender : String) (recipients : List String) (body : Bytes)
  | fetchPendingApplicationMessage (recipient : String)
  | ackApplicationMessage (recipient messageId : String)
  deriving DecidableEq, Repr

inductive Body
  | text (message : String)
  | bytes (bytes : Bytes)
  | delivery (delivery : PendingCommitDelivery)
  | commits (commits : List PendingCommit)
  | message (message : PendingApplicationMessage)
  deriving DecidableEq, Repr

structure Response where
  status : Nat
  body : Body
  deriving DecidableEq, Repr

/-- The two services behind the endpoints. -/
structure Servers where
  ds : DeliveryService
  relay : MessageRelay

def ok (body : Body) : Response := ⟨200, body⟩

def notFound : Response := ⟨404, .text ""⟩

def conflict (message : String) : Response := ⟨409, .text message⟩

def badRequest (message : String) : Response := ⟨400, .text message⟩

/-- Process one request; `order` is the iteration order over the group log. -/
def handle (order : List String) (servers : Servers) : Request → Response × Servers
  | .publishKeyPackage owner body =>
    (ok (.text ""), { servers with ds := servers.ds.publishKeyPackage owner body })
  | .fetchKeyPackage owner =>
    match servers.ds.fetchKeyPackage owner with
    | (some bytes, ds) => (ok (.bytes bytes), { servers with ds := ds })
    | (none, ds) => (notFound, { servers with ds := ds })
  | .putGroupState groupId epoch members =>
    match servers.ds.putGroupState groupId epoch members with
    | (.ok (), ds) => (ok (.text ""), { servers with ds := ds })
    | (.error message, ds) => (conflict message, { servers with ds := ds })
  | .publishGroupCommit groupId sender epoch body =>
    match servers.ds.publishGroupCommit groupId sender epoch body with
    | (.ok (), ds) => (ok (.text ""), { servers with ds := ds })
    | (.error message, ds) => (conflict message, { servers with ds := ds })
  | .fetchPendingCommit recipient =>
    match servers.ds.fetchPendingCommitDelivery order recipient with
    | some delivery => (ok (.delivery delivery), servers)
    | none => (notFound, servers)
  | .ackCommit recipient deliveryId =>
    match servers.ds.ackCommit order recipient deliveryId with
    | (true, ds) => (ok (.text ""), { servers with ds := ds })
    | (false, ds) =>
      (ok (.text "commit delivery was already acked or absent"), { servers with ds := ds })
  | .fetchPendingCommits client afterEpoch =>
    (ok (.commits (servers.ds.fetchPendingCommits order client afterEpoch)), servers)
  | .publishWelcome recipient body =>
    (ok (.text ""), { servers with ds := servers.ds.publishWelcome recipient body })
  | .fetchWelcome recipient =>
    match servers.ds.fetchWelcome recipient with
    | (some bytes, ds) => (ok (.bytes bytes), { servers with ds := ds })
    | (none, ds) => (notFound, { servers with ds := ds })
  | .publishApplicationMessage groupId sender recipients body =>
    match parseRecipientsHeader (joinRecipients recipients) with
    | .error message => (badRequest message, servers)
    | .ok parsed =>
      match servers.relay.publishGroupApplicationMessage groupId sender parsed body with
      | (.ok (), relay) => (ok (.text ""), { servers with relay := relay })
      | (.error message, relay) => (badRequest message, { servers with relay := relay })
  | .fetchPendingApplicationMessage recipient =>
    match servers.relay.fetchPendingApplicationMessage recipient with
    | some message => (ok (.message message), servers)
    | none => (notFound, servers)
  | .ackApplicationMessage recipient messageId =>
    match servers.relay.ackApplicationMessage recipient messageId with
    | (true, relay) => (ok (.text ""), { servers with relay := relay })
    | (false, relay) =>
      (ok (.text "application message was already acked or absent"), { servers with relay := relay })

/-- The delivery service behind the endpoints. -/
theorem ds_handle (order : List String) (servers : Servers) (request : Request) :
    (handle order servers request).2.ds =
      match request with
      | .publishKeyPackage owner body => servers.ds.publishKeyPackage owner body
      | .fetchKeyPackage owner => (servers.ds.fetchKeyPackage owner).2
      | .putGroupState groupId epoch members => (servers.ds.putGroupState groupId epoch members).2
      | .publishGroupCommit groupId sender epoch body =>
        (servers.ds.publishGroupCommit groupId sender epoch body).2
      | .ackCommit recipient deliveryId => (servers.ds.ackCommit order recipient deliveryId).2
      | .publishWelcome recipient body => servers.ds.publishWelcome recipient body
      | .fetchWelcome recipient => (servers.ds.fetchWelcome recipient).2
      | _ => servers.ds := by
  cases request with
  | publishKeyPackage | fetchPendingCommits | publishWelcome => rfl
  | fetchPendingCommit | fetchPendingApplicationMessage | ackApplicationMessage =>
    simp only [handle]
    split <;> rfl
  | publishApplicationMessage =>
    simp only [handle]
    split
    · rfl
    · split <;> rfl
  | fetchKeyPackage | putGroupState | publishGroupCommit | ackCommit | fetchWelcome =>
    simp only [handle]
    split <;> rename_i heq <;> rw [heq]

/-- The key packages and the welcomes behind the endpoints. -/
theorem stores_handle {order : List String} {servers : Servers} {request : Request} :
    (handle order servers request).2.ds.keyPackages =
        (match request with
        | .publishKeyPackage owner body =>
          Function.update servers.ds.keyPackages owner (some body)
        | .fetchKeyPackage owner => Function.update servers.ds.keyPackages owner none
        | _ => servers.ds.keyPackages) ∧
      (handle order servers request).2.ds.welcomeInboxes =
        match request with
        | .publishWelcome recipient body =>
          (servers.ds.publishWelcome recipient body).welcomeInboxes
        | .fetchWelcome recipient => (servers.ds.fetchWelcome recipient).2.welcomeInboxes
        | _ => servers.ds.welcomeInboxes := by
  rw [ds_handle]
  cases request with
  | putGroupState =>
    simp only [DeliveryService.putGroupState]
    split
    · split <;> exact ⟨rfl, rfl⟩
    · exact ⟨rfl, rfl⟩
  | publishGroupCommit groupId sender epoch body =>
    simp only [DeliveryService.publishGroupCommit]
    split
    · exact ⟨rfl, rfl⟩
    · rename_i members accepted haccepted
      obtain ⟨_, -, -, -, rfl⟩ := DeliveryService.acceptCommit_eq_ok haccepted
      split
      · simp [DeliveryService.foldl_pushCommit]
      · exact ⟨rfl, rfl⟩
  | ackCommit =>
    simp only [DeliveryService.ackCommit, DeliveryService.ackGroupLogCommitCompat]
    split <;> split <;> exact ⟨rfl, rfl⟩
  | fetchWelcome =>
    refine ⟨?_, rfl⟩
    simp only [DeliveryService.fetchWelcome]
    split <;> rfl
  | publishKeyPackage | fetchKeyPackage | fetchPendingCommit | fetchPendingCommits |
    publishWelcome | publishApplicationMessage | fetchPendingApplicationMessage |
    ackApplicationMessage => exact ⟨rfl, rfl⟩

/-- A successful result of a request helper. -/
inductive Reply
  | done
  | conflict (message : String)
  | bytes (bytes : Bytes)
  | delivery (delivery : PendingCommitDelivery)
  | commits (commits : List PendingCommit)
  | message (message : PendingApplicationMessage)
  deriving DecidableEq, Repr

inductive RetryDecision
  | success (reply : Reply)
  | transient (cause : String)
  | fatal (cause : String)
  deriving DecidableEq, Repr

def maxAttempts : Nat := 10

def isTransientStatus (status : Nat) : Bool :=
  status == 502 || status == 503 || status == 504

def statusText : Nat → String
  | 200 => "200 OK"
  | 400 => "400 Bad Request"
  | 404 => "404 Not Found"
  | 409 => "409 Conflict"
  | 502 => "502 Bad Gateway"
  | 503 => "503 Service Unavailable"
  | 504 => "504 Gateway Timeout"
  | status => status.repr

def Body.asText : Body → String
  | .text content => content
  | _ => ""

/-- How the helper of a request names its failure. -/
def Request.failureLabel : Request → String
  | .publishKeyPackage _ _ => "DS POST"
  | .fetchKeyPackage _ => "DS GET"
  | .putGroupState _ _ _ => "DS PUT"
  | .publishGroupCommit _ _ _ _ => "DS POST"
  | .fetchPendingCommit _ => "DS pending commit GET"
  | .ackCommit _ _ => "DS ack commit"
  | .fetchPendingCommits _ _ => "DS pending commits GET"
  | .publishWelcome _ _ => "DS POST"
  | .fetchWelcome _ => "DS GET"
  | .publishApplicationMessage _ _ _ _ => "Relay POST"
  | .fetchPendingApplicationMessage _ => "Relay pending message GET"
  | .ackApplicationMessage _ _ => "Relay ack application message"

/-- The helpers built on `ds_post_bytes_allow_conflict`. -/
def Request.allowsConflict : Request → Bool
  | .publishKeyPackage _ _ => true
  | .publishGroupCommit _ _ _ _ => true
  | .publishWelcome _ _ => true
  | _ => false

/-- The result a helper reads from a successful response. -/
def Request.reply : Request → Body → Option Reply
  | .fetchKeyPackage _, .bytes bytes => some (.bytes bytes)
  | .fetchKeyPackage _, _ => none
  | .fetchWelcome _, .bytes bytes => some (.bytes bytes)
  | .fetchWelcome _, _ => none
  | .fetchPendingCommit _, .delivery delivery => some (.delivery delivery)
  | .fetchPendingCommit _, _ => none
  | .fetchPendingCommits _ _, .commits commits => some (.commits commits)
  | .fetchPendingCommits _ _, _ => none
  | .fetchPendingApplicationMessage _, .message message => some (.message message)
  | .fetchPendingApplicationMessage _, _ => none
  | _, _ => some .done

/-- Classification of a response. -/
def Request.retryDecision (request : Request) (response : Response) : RetryDecision :=
  if 200 ≤ response.status ∧ response.status < 300 then
    match request.reply response.body with
    | some reply => .success reply
    | none => .fatal "error decoding response body"
  else if request.allowsConflict = true ∧ response.status = 409 then
    .success (.conflict response.body.asText)
  else if isTransientStatus response.status then
    .transient ("HTTP " ++ statusText response.status ++ ": " ++ response.body.asText)
  else
    .fatal (request.failureLabel ++ " failed with status " ++ statusText response.status ++ ": " ++
      response.body.asText)

/-- A helper call: the request with the names that appear in its error text. -/
structure HelperCall (ρ : Type) where
  op : String
  client : String
  url : String
  request : ρ
  deriving DecidableEq, Repr

abbrev Call : Type := HelperCall Request

/-- The text of a call that was given up. -/
def HelperCall.errorText {ρ : Type} (call : HelperCall ρ) (attempts elapsedMs : Nat)
    (cause : String) : String :=
  call.op ++ " failed: client=" ++ call.client ++ " url=" ++ call.url ++ " attempts=" ++
    attempts.repr ++ " elapsed_ms=" ++ elapsedMs.repr ++ " cause=" ++ cause

end MessagingBench.Worker
