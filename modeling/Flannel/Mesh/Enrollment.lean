import Flannel.Program.Outage
import Flannel.Text.Fields

/-!
# Enrollment of a mesh node

`loadOrEnroll` as a program whose requests are the calls to Cloudflare and the accesses to the
state file, both given by what decoding yields. A registration that was created has to end up in
the state file; between the enrollment and the write are exits that neither record nor delete it.
-/

namespace Flannel.Mesh

open Program Text

/-! ## Data -/

structure CloudflareError where
  code : Int
  message : String
  deriving DecidableEq

structure MeshRegistration where
  id : String
  token : String
  isConnector : Bool
  accountType : String
  peers : List String
  policyID : String
  deriving DecidableEq

structure RegistrationEnvelope where
  success : Bool
  result : MeshRegistration
  errors : List CloudflareError
  deriving DecidableEq

structure PersistedRegistration where
  connectorID : String
  privateKey : String
  registration : MeshRegistration
  deriving DecidableEq

structure Credentials where
  id : String
  name : String
  token : String
  deriving DecidableEq

inductive Response (β : Type)
  | failed (err : String)
  | unreadable (status : Nat) (err : String)
  | received (status : Nat) (body : β)
  deriving DecidableEq

structure RefreshBody where
  registration : Except String MeshRegistration
  errors : Option (List CloudflareError)

inductive Reading
  | absent
  | failed (err : String)
  | contents (state : Except String PersistedRegistration)

/-- Keys and their texts: `parsePrivate` decodes and parses, `publicDER` and `privateDER`
marshal and encode. `accountID` is `connectorAccountID`. -/
structure Codecs (Key : Type) where
  parsePrivate : String → Except String Key
  publicDER : Key → Except String String
  privateDER : Key → Except String String
  accountID : String → Except String String
  compatHint : String

inductive EnrollCall
  | readState
  | generateKey
  | enroll (accountID name key token : String)
  | refresh (id token key name : String)
  | delete (id token : String)
  | writeState (state : PersistedRegistration)
  deriving DecidableEq

abbrev EnrollAnswer (Key : Type) : EnrollCall → Type
  | .readState => Reading
  | .generateKey => Except String Key
  | .enroll _ _ _ _ => Response (Except String RegistrationEnvelope)
  | .refresh _ _ _ _ => Response RefreshBody
  | .delete _ _ => Response Unit
  | .writeState _ => Except String Unit

abbrev Enrolling (Key : Type) := Prog EnrollCall (EnrollAnswer Key)

def send {Key : Type} (call : EnrollCall) : Enrolling Key (EnrollAnswer Key call) :=
  Prog.request call

/-! ## The source functions -/

def blank (text : String) : Bool :=
  text.toList.all isUnicodeSpace

def formatCloudflareErrors (errors : List CloudflareError) : String :=
  let parts := errors.map fun item =>
    if item.message = "" then "code " ++ toString item.code
    else if item.code = 0 then item.message
    else toString item.code ++ ": " ++ item.message
  if parts = [] then "" else ": " ++ "; ".intercalate parts

def cloudflareErrorDetail (errors : Option (List CloudflareError)) : String :=
  (errors.map formatCloudflareErrors).getD ""

/-- An error of a refresh, which may be `errRegistrationGone`. -/
inductive RefreshError
  | gone (text : String)
  | other (text : String)
  deriving DecidableEq

def registrationRefreshError (statusCode : Nat) (errors : Option (List CloudflareError)) :
    Option RefreshError :=
  if statusCode = 200 then none
  else if statusCode = 404 ∨ statusCode = 410 ∨ statusCode = 401 ∨ statusCode = 403 then
    some (.gone ("registration no longer exists at Cloudflare (HTTP " ++ toString statusCode ++ ")" ++
      cloudflareErrorDetail errors))
  else
    some (.other ("refresh native Mesh registration: HTTP " ++ toString statusCode ++
      cloudflareErrorDetail errors))

def enrollmentRejected (compatHint : String) (statusCode : Nat) (envelope : RegistrationEnvelope) :
    String :=
  let message := "Cloudflare rejected native connector enrollment: HTTP " ++ toString statusCode ++
    " connector=" ++ toString envelope.result.isConnector ++ " account=\"" ++
    envelope.result.accountType ++ "\"" ++ formatCloudflareErrors envelope.errors
  if 400 ≤ statusCode ∧ statusCode < 500 then message ++ "; " ++ compatHint else message

def registrationName (nodeName : String) (connector : Credentials) : String :=
  if blank connector.name then nodeName else connector.name

section Functions

variable {Key : Type} (codecs : Codecs Key)

def refreshRegistration (registration : MeshRegistration) (publicDER nodeName : String) :
    Enrolling Key (Except RefreshError MeshRegistration) := do
  match ← send (.refresh registration.id registration.token publicDER nodeName) with
  | .failed err => pure (.error (.other ("refresh native Mesh registration: " ++ err)))
  | .unreadable _ err => pure (.error (.other err))
  | .received status body =>
    match registrationRefreshError status body.errors with
    | some err => pure (.error err)
    | none =>
      match body.registration with
      | .error err =>
        pure (.error (.other ("decode refreshed native Mesh registration: " ++ err)))
      | .ok refreshed =>
        if refreshed.id = "" ∨ refreshed.peers = [] ∨ refreshed.policyID = "" then
          pure (.error (.other "refreshed native Mesh registration is incomplete"))
        else pure (.ok { refreshed with token := registration.token })

def deleteRegistration (registration : MeshRegistration) : Enrolling Key (Except String Unit) := do
  if registration.id = "" ∨ blank registration.token = true then
    pure (.error "registration is incomplete")
  else
    match ← send (.delete registration.id registration.token) with
    | .failed err => pure (.error err)
    | .unreadable status _ => pure (deleted status)
    | .received status _ => pure (deleted status)
where
  /-- What a status says about a deletion. -/
  deleted (status : Nat) : Except String Unit :=
    if status = 404 ∨ status = 410 then .ok ()
    else if status < 200 ∨ 300 ≤ status then .error ("HTTP " ++ toString status)
    else .ok ()

def recordEnrollment (connector : Credentials) (name : String) (key : Key) (publicDER : String)
    (response : Response (Except String RegistrationEnvelope)) :
    Enrolling Key (Except String (MeshRegistration × Key)) := do
  match response with
  | .failed err => pure (.error ("enroll native Mesh connector: " ++ err))
  | .unreadable _ err => pure (.error err)
  | .received status (.error err) =>
    pure (.error ("decode connector enrollment HTTP " ++ toString status ++ ": " ++ err))
  | .received status (.ok envelope) =>
    if status ≠ 200 ∨ envelope.success = false ∨ envelope.result.isConnector = false ∨
        envelope.result.accountType ≠ "team" then
      pure (.error (enrollmentRejected codecs.compatHint status envelope))
    else if blank envelope.result.token then
      pure (.error "Cloudflare connector enrollment returned no device token")
    else
      match ← refreshRegistration envelope.result publicDER name with
      | .error (.gone err) => pure (.error err)
      | .error (.other err) => pure (.error err)
      | .ok refreshed =>
        match codecs.privateDER key with
        | .error err => pure (.error err)
        | .ok privateKey =>
          match ← send (.writeState ⟨connector.id, privateKey, refreshed⟩) with
          | .error err => pure (.error err)
          | .ok _ => pure (.ok (refreshed, key))

def enroll (connector : Credentials) (name : String) :
    Enrolling Key (Except String (MeshRegistration × Key)) := do
  match ← send .generateKey with
  | .error err => pure (.error err)
  | .ok key =>
    match codecs.publicDER key with
    | .error err => pure (.error err)
    | .ok publicDER =>
      match codecs.accountID connector.token with
      | .error err => pure (.error err)
      | .ok accountID => do
        let response ← send (.enroll accountID name publicDER connector.token)
        recordEnrollment codecs connector name key publicDER response

def replace (connector : Credentials) (name : String) (superseded : MeshRegistration) :
    Enrolling Key (Except String (MeshRegistration × Key)) := do
  -- an error is only logged
  let _ ← deleteRegistration superseded
  enroll codecs connector name

def usableKey (connector : Credentials) (state : PersistedRegistration) : Option Key :=
  if state.connectorID ≠ connector.id then none
  else if state.privateKey = "" ∨ state.registration.id = "" ∨ state.registration.token = "" then none
  else (codecs.parsePrivate state.privateKey).toOption

def resume (connector : Credentials) (name : String) (state : PersistedRegistration) :
    Enrolling Key (Except String (MeshRegistration × Key)) := do
  match usableKey codecs connector state with
  | none => replace codecs connector name state.registration
  | some key =>
    match codecs.publicDER key with
    | .error err => pure (.error err)
    | .ok publicDER =>
      match ← refreshRegistration state.registration publicDER name with
      | .ok refreshed =>
        match ← send (.writeState { state with registration := refreshed }) with
        | .error err => pure (.error err)
        | .ok _ => pure (.ok (refreshed, key))
      | .error (.gone _) => enroll codecs connector name
      | .error (.other err) => pure (.error err)

def loadOrEnroll (nodeName : String) (connector : Option Credentials) :
    Enrolling Key (Except String (MeshRegistration × Key)) := do
  match connector with
  | none => pure (.error "native Mesh connector credentials are incomplete")
  | some connector =>
    if connector.id = "" ∨ blank connector.token = true then
      pure (.error "native Mesh connector credentials are incomplete")
    else
      let name := registrationName nodeName connector
      match ← send .readState with
      | .absent => enroll codecs connector name
      | .failed err => pure (.error ("read native Mesh state: " ++ err))
      | .contents (.error err) => pure (.error ("decode native Mesh state: " ++ err))
      | .contents (.ok state) => resume codecs connector name state

end Functions

/-! ## Cloudflare and the state file -/

/-- What becomes of the requests of one call; `created` is the registration that the
enrollment adds, if any, and `deletes` says whether the deletion takes effect. -/
structure Outcomes (Key : Type) where
  readError : Option String
  key : Except String Key
  created : Option String
  enrolled : Response (Except String RegistrationEnvelope)
  refreshedBefore : Response RefreshBody
  refreshedAfter : Response RefreshBody
  deletes : Bool
  deleted : Response Unit
  written : Except String Unit

structure Remote where
  live : List String
  file : Option (Except String PersistedRegistration)
  posted : Bool
  created : Option String

section World

variable {Key : Type} (codecs : Codecs Key) (o : Outcomes Key)

def reply (r : Remote) : (call : EnrollCall) → EnrollAnswer Key call × Remote
  | .readState =>
    match o.readError, r.file with
    | some err, _ => (.failed err, r)
    | none, none => (.absent, r)
    | none, some state => (.contents state, r)
  | .generateKey => (o.key, r)
  | .enroll _ _ _ _ =>
    (o.enrolled, { r with live := o.created.toList ++ r.live, posted := true, created := o.created })
  | .refresh _ _ _ _ => (if r.posted then o.refreshedAfter else o.refreshedBefore, r)
  | .delete id _ => (o.deleted, { r with live := if o.deletes then r.live.filter (· ≠ id) else r.live })
  | .writeState state =>
    (o.written, { r with file := if o.written.isOk then some (.ok state) else r.file })

/-- What the call has created and is live is recorded in the state file. -/
def NoLeak (r : Remote) : Prop :=
  ∀ id, r.created = some id → id ∈ r.live →
    ∃ state, r.file = some (.ok state) ∧ state.registration.id = id

def afterCall (nodeName : String) (connector : Option Credentials) (live : List String)
    (file : Option (Except String PersistedRegistration)) : Remote :=
  (perform (reply o) ⟨live, file, false, none⟩ (loadOrEnroll codecs nodeName connector)).2

/-! ## Refreshing -/

def refreshResult (registration : MeshRegistration) :
    Response RefreshBody → Except RefreshError MeshRegistration
  | .failed err => .error (.other ("refresh native Mesh registration: " ++ err))
  | .unreadable _ err => .error (.other err)
  | .received status body =>
    match registrationRefreshError status body.errors with
    | some err => .error err
    | none =>
      match body.registration with
      | .error err => .error (.other ("decode refreshed native Mesh registration: " ++ err))
      | .ok refreshed =>
        if refreshed.id = "" ∨ refreshed.peers = [] ∨ refreshed.policyID = "" then
          .error (.other "refreshed native Mesh registration is incomplete")
        else .ok { refreshed with token := registration.token }

def Gone (response : Response RefreshBody) : Prop :=
  ∃ status body, response = .received status body ∧
    (status = 404 ∨ status = 410 ∨ status = 401 ∨ status = 403)

def Refreshes (response : Response RefreshBody) (id : String) : Prop :=
  ∃ body refreshed, response = .received 200 body ∧ body.registration = .ok refreshed ∧
    refreshed.id = id ∧ id ≠ "" ∧ refreshed.peers ≠ [] ∧ refreshed.policyID ≠ ""

variable {codecs o} {r : Remote} {registration refreshed : MeshRegistration} {response : Response RefreshBody}

theorem perform_refreshRegistration {publicDER name : String} :
    perform (reply o) r (refreshRegistration registration publicDER name) =
      (refreshResult registration (if r.posted then o.refreshedAfter else o.refreshedBefore), r) := by
  have sent : perform (reply o) r (send (.refresh registration.id registration.token publicDER name)) =
      ((if r.posted then o.refreshedAfter else o.refreshedBefore), r) := rfl
  rw [refreshRegistration, perform_bind, sent]
  generalize (if r.posted then o.refreshedAfter else o.refreshedBefore) = response
  cases response with
  | failed err => rfl
  | unreadable status err => rfl
  | received status body =>
    simp only [refreshResult]
    cases registrationRefreshError status body.errors with
    | some err => rfl
    | none =>
      cases body.registration with
      | error err => rfl
      | ok refreshed =>
        simp only
        split <;> rfl

theorem registrationRefreshError_eq_none {status : Nat} {errors : Option (List CloudflareError)} :
    registrationRefreshError status errors = none ↔ status = 200 := by
  rw [registrationRefreshError]
  split_ifs with isOk isGone <;> simp [isOk]

theorem refreshResult_eq_ok_iff {id : String} :
    (∃ refreshed, refreshResult registration response = .ok refreshed ∧ refreshed.id = id) ↔
      Refreshes response id := by
  constructor
  · rintro ⟨refreshed, isOk, rfl⟩
    cases response with
    | failed err => contradiction
    | unreadable status err => contradiction
    | received status body =>
      rw [refreshResult] at isOk
      split at isOk
      · contradiction
      next noError =>
        obtain rfl := registrationRefreshError_eq_none.mp noError
        split at isOk
        · contradiction
        next decoded isDecoded =>
          split at isOk
          · contradiction
          next complete =>
            obtain rfl := Except.ok.inj isOk
            simp only [not_or] at complete
            exact ⟨body, decoded, rfl, isDecoded, rfl, complete⟩
  · rintro ⟨body, decoded, rfl, isDecoded, rfl, hasID, hasPeers, hasPolicy⟩
    refine ⟨{ decoded with token := registration.token }, ?_, rfl⟩
    rw [refreshResult, registrationRefreshError_eq_none.mpr rfl]
    simp [isDecoded, hasID, hasPeers, hasPolicy]

theorem refreshResult_eq_gone_iff :
    (∃ text, refreshResult registration response = .error (.gone text)) ↔ Gone response := by
  cases response with
  | failed err => simp [refreshResult, Gone]
  | unreadable status err => simp [refreshResult, Gone]
  | received status body =>
    by_cases isOk : status = 200
    · subst isOk
      have notGone : ¬ Gone (.received 200 body) := by simp [Gone]
      refine iff_of_false ?_ notGone
      rintro ⟨text, isGone⟩
      rw [refreshResult, registrationRefreshError_eq_none.mpr rfl] at isGone
      simp only at isGone
      split at isGone
      · cases isGone
      · split at isGone <;> cases isGone
    · by_cases gone : status = 404 ∨ status = 410 ∨ status = 401 ∨ status = 403
      · have isGone : Gone (.received status body) := ⟨status, body, rfl, gone⟩
        refine iff_of_true ?_ isGone
        rw [refreshResult, registrationRefreshError, if_neg isOk, if_pos gone]
        exact ⟨_, rfl⟩
      · have notGone : ¬ Gone (.received status body) := by
          rintro ⟨_, _, same, gone'⟩
          cases same
          exact gone gone'
        refine iff_of_false ?_ notGone
        rw [refreshResult, registrationRefreshError, if_neg isOk, if_neg gone]
        rintro ⟨text, isGone⟩
        cases isGone

/-! ## Recording an enrollment -/

theorem perform_writeState {state : PersistedRegistration} :
    perform (reply o) r (send (.writeState state)) =
      (o.written, { r with file := if o.written.isOk then some (.ok state) else r.file }) :=
  rfl

def Accepts (response : Response (Except String RegistrationEnvelope)) : Prop :=
  ∃ envelope, response = .received 200 (.ok envelope) ∧ envelope.success = true ∧
    envelope.result.isConnector = true ∧ envelope.result.accountType = "team" ∧
    blank envelope.result.token = false

variable (codecs o) in
structure Completes (key : Key) (id : String) : Prop where
  accepted : Accepts o.enrolled
  refreshed : Refreshes o.refreshedAfter id
  marshalled : ∃ text, codecs.privateDER key = .ok text
  written : o.written.isOk = true

variable {connector : Credentials} {name : String} {key : Key} {publicDER : String}

variable (codecs o connector name key publicDER) in
theorem perform_recordEnrollment (posted : r.posted) :
    (∃ state, Completes codecs o key state.registration.id ∧
      (perform (reply o) r (recordEnrollment codecs connector name key publicDER o.enrolled)).2 =
        { r with file := some (.ok state) }) ∨
    (∀ id, ¬ Completes codecs o key id) ∧
      (perform (reply o) r (recordEnrollment codecs connector name key publicDER o.enrolled)).2 = r := by
  by_cases accepts : Accepts o.enrolled
  · have accepted := accepts
    obtain ⟨envelope, isEnrolled, success, isConnector, isTeam, hasToken⟩ := accepts
    rw [isEnrolled, recordEnrollment, if_neg (by simp [success, isConnector, isTeam]),
      if_neg (by simp [hasToken]), perform_bind, perform_refreshRegistration, if_pos posted]
    cases result : refreshResult envelope.result o.refreshedAfter with
    | error err =>
      refine .inr ⟨fun id completes => ?_, by cases err <;> rfl⟩
      obtain ⟨refreshed, isOk, _⟩ := refreshResult_eq_ok_iff.mpr completes.refreshed
      rw [result] at isOk
      contradiction
    | ok refreshed =>
      cases marshals : codecs.privateDER key with
      | error err =>
        refine .inr ⟨fun id completes => ?_, rfl⟩
        obtain ⟨text, marshalled⟩ := completes.marshalled
        rw [marshals] at marshalled
        contradiction
      | ok privateKey =>
        simp only
        rw [perform_bind, perform_writeState]
        cases isWritten : o.written with
        | error err =>
          refine .inr ⟨fun id completes => ?_, rfl⟩
          have written := completes.written
          rw [isWritten] at written
          contradiction
        | ok value =>
          refine .inl ⟨⟨connector.id, privateKey, refreshed⟩, ⟨accepted, ?_, ⟨_, marshals⟩, ?_⟩, rfl⟩
          · exact refreshResult_eq_ok_iff.mp ⟨refreshed, result, rfl⟩
          · rw [isWritten]
            rfl
  · refine .inr ⟨fun id completes => accepts completes.accepted, ?_⟩
    cases isEnrolled : o.enrolled with
    | failed err => rfl
    | unreadable status err => rfl
    | received status body =>
      cases body with
      | error err => rfl
      | ok envelope =>
        rw [recordEnrollment]
        split
        · rfl
        next good =>
          split
          · rfl
          next hasToken =>
            refine absurd ⟨envelope, ?_⟩ accepts
            simp only [not_or, not_not, Bool.not_eq_false] at good
            obtain ⟨rfl, success, isConnector, isTeam⟩ := good
            exact ⟨isEnrolled, success, isConnector, isTeam, by simpa using hasToken⟩

/-! ## The whole call -/

variable (codecs o) in
structure Keyed (connector : Credentials) (key : Key) : Prop where
  generated : o.key = .ok key
  marshalled : ∃ text, codecs.publicDER key = .ok text
  decoded : ∃ accountID, codecs.accountID connector.token = .ok accountID

/-- The identifier of a new registration is not one that the file records. -/
def New (created : Option String) (file : Option (Except String PersistedRegistration)) : Prop :=
  ∀ id, created = some id → ∀ state, file = some (.ok state) → state.registration.id ≠ id

theorem noLeak_of_created_eq_none (none : r.created = none) : NoLeak r := by
  intro id isCreated
  rw [none] at isCreated
  contradiction

variable (codecs o r connector name) in
theorem perform_enroll :
    (∃ key publicDER, Keyed codecs o connector key ∧
      (perform (reply o) r (enroll codecs connector name)).2 =
        (perform (reply o)
          { r with live := o.created.toList ++ r.live, posted := true, created := o.created }
          (recordEnrollment codecs connector name key publicDER o.enrolled)).2) ∨
    (∀ key, ¬ Keyed codecs o connector key) ∧
      (perform (reply o) r (enroll codecs connector name)).2 = r := by
  have generates : perform (reply o) r (send .generateKey) = (o.key, r) := rfl
  rw [enroll, perform_bind, generates]
  cases isKey : o.key with
  | error err =>
    refine .inr ⟨fun key keyed => ?_, rfl⟩
    rw [keyed.generated] at isKey
    contradiction
  | ok key =>
    have sameKey : ∀ other, Keyed codecs o connector other → other = key := fun other keyed =>
      Except.ok.inj (keyed.generated.symm.trans isKey)
    cases marshals : codecs.publicDER key with
    | error err =>
      refine .inr ⟨fun other keyed => ?_, by simp only [marshals]; rfl⟩
      obtain ⟨text, marshalled⟩ := keyed.marshalled
      rw [sameKey other keyed, marshals] at marshalled
      contradiction
    | ok publicDER =>
      cases decodes : codecs.accountID connector.token with
      | error err =>
        refine .inr ⟨fun other keyed => ?_, by simp only [marshals]; rfl⟩
        obtain ⟨accountID, decoded⟩ := keyed.decoded
        rw [decodes] at decoded
        contradiction
      | ok accountID =>
        refine .inl ⟨key, publicDER, ⟨isKey, ⟨_, marshals⟩, ⟨_, decodes⟩⟩, ?_⟩
        simp only [marshals]
        rfl

theorem Refreshes.unique {id other : String} (refreshes : Refreshes response id)
    (refreshes' : Refreshes response other) : id = other := by
  obtain ⟨body, refreshed, rfl, isDecoded, rfl, _⟩ := refreshes
  obtain ⟨body', refreshed', same, isDecoded', rfl, _⟩ := refreshes'
  cases same
  rw [Except.ok.inj (isDecoded.symm.trans isDecoded')]

theorem noLeak_enroll (created : r.created = none) (isNew : New o.created r.file) :
    NoLeak (perform (reply o) r (enroll codecs connector name)).2 ↔
      ∀ key id, Keyed codecs o connector key → o.created = some id → Completes codecs o key id := by
  rcases perform_enroll codecs o r connector name with ⟨key, publicDER, keyed, after⟩ | ⟨notKeyed, after⟩
  · have sameKey : ∀ other, Keyed codecs o connector other → other = key := fun other keyed' =>
      Except.ok.inj (keyed'.generated.symm.trans keyed.generated)
    have isLive : ∀ id, o.created = some id → id ∈ o.created.toList ++ r.live := by
      intro id isCreated
      rw [isCreated]
      exact (.head _)
    rw [after]
    rcases perform_recordEnrollment codecs o connector name key publicDER
      (rfl : ({ r with live := _, posted := true, created := _ } : Remote).posted) with
      ⟨state, completes, recorded⟩ | ⟨fails, unchanged⟩
    · rw [recorded]
      constructor
      · intro noLeak other id keyed' isCreated
        obtain ⟨state', isState, rfl⟩ := noLeak id isCreated (isLive id isCreated)
        cases isState
        rw [sameKey other keyed']
        exact completes
      · intro all id isCreated _
        have completes' := all key id keyed isCreated
        exact ⟨state, rfl, completes.refreshed.unique completes'.refreshed⟩
    · rw [unchanged]
      constructor
      · intro noLeak other id _ isCreated
        obtain ⟨state, isState, sameID⟩ := noLeak id isCreated (isLive id isCreated)
        exact absurd sameID (isNew id isCreated state isState)
      · intro all id isCreated _
        exact absurd (all key id keyed isCreated) (fails id)
  · rw [after]
    exact iff_of_true (noLeak_of_created_eq_none created) fun key _ keyed => absurd keyed (notKeyed key)

variable (codecs o) in
def Unusable (connector : Credentials) : Option (Except String PersistedRegistration) → Prop
  | none => True
  | some (.error _) => False
  | some (.ok state) =>
    match usableKey codecs connector state with
    | none => True
    | some key => (∃ text, codecs.publicDER key = .ok text) ∧ Gone o.refreshedBefore

theorem perform_deleteRegistration :
    ∃ live, (perform (reply o) r (deleteRegistration registration)).2 = { r with live := live } := by
  have sent : perform (reply o) r (send (.delete registration.id registration.token)) =
      (o.deleted, { r with live :=
        if o.deletes then r.live.filter (· ≠ registration.id) else r.live }) := rfl
  rw [deleteRegistration]
  split
  · exact ⟨r.live, rfl⟩
  · rw [perform_bind, sent]
    cases o.deleted <;> exact ⟨_, rfl⟩

variable (codecs connector name) in
theorem noLeak_resume {state : PersistedRegistration} (created : r.created = none)
    (posted : r.posted = false) (isFile : r.file = some (.ok state)) (isNew : New o.created r.file) :
    NoLeak (perform (reply o) r (resume codecs connector name state)).2 ↔
      (Unusable codecs o connector r.file →
        ∀ key id, Keyed codecs o connector key → o.created = some id → Completes codecs o key id) := by
  rw [isFile]
  simp only [Unusable]
  rw [resume]
  cases usableKey codecs connector state with
  | none =>
    obtain ⟨live, deleted⟩ := @perform_deleteRegistration _ o r state.registration
    rw [replace, perform_bind, deleted, forall_const]
    exact noLeak_enroll created isNew
  | some key =>
    cases marshals : codecs.publicDER key with
    | error err =>
      simp only [marshals]
      refine iff_of_true (noLeak_of_created_eq_none created) ?_
      rintro ⟨⟨text, marshalled⟩, _⟩
      contradiction
    | ok publicDER =>
      simp only [marshals]
      have isGone := @refreshResult_eq_gone_iff state.registration o.refreshedBefore
      rw [perform_bind, perform_refreshRegistration, posted, if_neg Bool.false_ne_true, ← isGone]
      cases refreshResult state.registration o.refreshedBefore with
      | ok refreshed =>
        simp only
        rw [perform_bind, perform_writeState]
        refine iff_of_true (noLeak_of_created_eq_none ?_) (by simp)
        cases o.written <;> exact created
      | error err =>
        cases err with
        | gone text => simpa using noLeak_enroll created isNew
        | other text => exact iff_of_true (noLeak_of_created_eq_none created) (by simp)

variable (codecs o) in
structure Posts (file : Option (Except String PersistedRegistration)) (connector : Option Credentials)
    (key : Key) : Prop where
  credentials : ∃ credentials, connector = some credentials ∧ credentials.id ≠ "" ∧
    blank credentials.token = false ∧ Unusable codecs o credentials file ∧
    Keyed codecs o credentials key
  read : o.readError = none

theorem perform_readState :
    perform (reply o) r (send .readState) =
      ((match o.readError, r.file with
        | some err, _ => .failed err
        | none, none => .absent
        | none, some state => .contents state), r) := by
  change reply o r .readState = _
  rw [reply]
  split <;> rfl

theorem posts_some {file : Option (Except String PersistedRegistration)}
    (complete : ¬ (connector.id = "" ∨ blank connector.token)) (read : o.readError = none) :
    Posts codecs o file (some connector) key ↔
      Unusable codecs o connector file ∧ Keyed codecs o connector key := by
  simp only [not_or, Bool.not_eq_true] at complete
  constructor
  · rintro ⟨⟨_, same, _, _, unusable, keyed⟩, _⟩
    cases same
    exact ⟨unusable, keyed⟩
  · rintro ⟨unusable, keyed⟩
    exact ⟨⟨connector, rfl, complete.1, complete.2, unusable, keyed⟩, read⟩

/-- A call leaks nothing exactly if every enrollment that it sends and that creates a
registration is accepted, refreshed as that registration and recorded. -/
theorem noLeak_iff {Key : Type} (codecs : Codecs Key) (o : Outcomes Key) (nodeName : String)
    (connector : Option Credentials) (live : List String)
    (file : Option (Except String PersistedRegistration)) (isNew : New o.created file) :
    NoLeak (afterCall codecs o nodeName connector live file) ↔
      ∀ key id, Posts codecs o file connector key → o.created = some id → Completes codecs o key id := by
  have atStart : (⟨live, file, false, none⟩ : Remote).created = none := rfl
  have nothingPosted : (∀ key, ¬ Posts codecs o file connector key) →
      ∀ key id, Posts codecs o file connector key → o.created = some id → Completes codecs o key id :=
    fun notPosts key _ posts => absurd posts (notPosts key)
  rw [afterCall]
  cases connector with
  | none =>
    refine iff_of_true (noLeak_of_created_eq_none atStart) (nothingPosted fun key posts => ?_)
    obtain ⟨_, isSome, _⟩ := posts.credentials
    contradiction
  | some connector =>
    rw [loadOrEnroll]
    by_cases incomplete : connector.id = "" ∨ blank connector.token
    · rw [if_pos incomplete]
      refine iff_of_true (noLeak_of_created_eq_none atStart) (nothingPosted fun key posts => ?_)
      obtain ⟨_, same, hasID, hasToken, _⟩ := posts.credentials
      cases same
      simp [hasID, hasToken] at incomplete
    · rw [if_neg incomplete]
      cases read : o.readError with
      | some err =>
        rw [perform_bind, perform_readState, read]
        refine iff_of_true (noLeak_of_created_eq_none atStart) (nothingPosted fun key posts => ?_)
        rw [posts.read] at read
        contradiction
      | none =>
        simp only [posts_some incomplete read]
        cases file with
        | none =>
          rw [perform_bind, perform_readState, read]
          simp only [Unusable, true_and]
          exact noLeak_enroll atStart isNew
        | some contents =>
          rw [perform_bind, perform_readState, read]
          cases contents with
          | error err =>
            refine iff_of_true (noLeak_of_created_eq_none atStart) fun key id posts => ?_
            exact posts.1.elim
          | ok state =>
            have resumed := noLeak_resume codecs connector (registrationName nodeName connector)
              atStart rfl rfl isNew
            simp only
            rw [resumed]
            constructor
            · intro completes key id posts
              exact completes posts.1 key id posts.2
            · intro completes unusable key id keyed
              exact completes key id ⟨unusable, keyed⟩

end World

def plainCodecs : Codecs Unit where
  parsePrivate _ := .ok ()
  publicDER _ := .ok "public"
  privateDER _ := .ok "private"
  accountID _ := .ok "account"
  compatHint := ""

def enrolledRegistration : MeshRegistration :=
  ⟨"r1", "secret", true, "team", ["peer"], "policy"⟩

def enrollingWith (refreshedAfter : Response RefreshBody) : Outcomes Unit where
  readError := none
  key := .ok ()
  created := some "r1"
  enrolled := .received 200 (.ok ⟨true, enrolledRegistration, []⟩)
  refreshedBefore := .failed "unreachable"
  refreshedAfter := refreshedAfter
  deletes := true
  deleted := .received 200 ()
  written := .ok ()

def sampleCredentials : Credentials :=
  ⟨"c1", "node-a", "token"⟩

theorem noLeak_refreshed :
    NoLeak (afterCall plainCodecs
      (enrollingWith (.received 200 ⟨.ok enrolledRegistration, none⟩)) "node-a"
      (some sampleCredentials) [] none) := by
  refine (noLeak_iff plainCodecs _ "node-a" (some sampleCredentials) [] none ?_).mpr ?_
  · intro id _ state isState
    contradiction
  · intro key id _ isCreated
    cases isCreated
    refine ⟨⟨_, rfl, rfl, rfl, rfl, by decide⟩, ⟨_, enrolledRegistration, rfl, rfl, rfl, ?_⟩, ⟨_, rfl⟩, rfl⟩
    decide

/-- If the refresh after the enrollment is answered with an internal error, the new
registration stays live and is recorded nowhere. -/
theorem leaks_registration_on_failed_refresh :
    New (some "r1") none ∧
      ¬ NoLeak (afterCall plainCodecs
        (enrollingWith (.received 500 ⟨.error "no registration", none⟩)) "node-a"
        (some sampleCredentials) [] none) := by
  refine ⟨nofun, fun noLeak => ?_⟩
  have isLive : "r1" ∈ (afterCall plainCodecs
      (enrollingWith (.received 500 ⟨.error "no registration", none⟩)) "node-a"
      (some sampleCredentials) [] none).live := by decide
  obtain ⟨state, isState, _⟩ := noLeak "r1" rfl isLive
  contradiction

end Flannel.Mesh
