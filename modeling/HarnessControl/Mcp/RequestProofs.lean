import HarnessControl.Library.Base64
import HarnessControl.Library.Dict
import HarnessControl.Library.JoinedFields
import HarnessControl.Mcp.Redaction

/-!
# Proofs of requests

Every request to an attachment is signed: its method, URL, the hash of its body and the ids that it
is made for are joined by line feeds.
-/

namespace HarnessControl.Mcp

open HarnessControl.Library

/-! ## Attachments and contexts -/

/-- `nonEmptyStringSchema` -/
structure NonEmptyText where
  text : Text
  nonempty : text ≠ []
deriving DecidableEq

structure ProofOfPossession where
  key_id : NonEmptyText
  required_headers : List NonEmptyText
  some_header : required_headers ≠ []

structure ProofAttachment where
  name : NonEmptyText
  lease_id : NonEmptyText
  proof_of_possession : ProofOfPossession

structure ProofContext where
  session_id : NonEmptyText
  host_id : NonEmptyText
  provider_instance_id : NonEmptyText
  workspace_id : NonEmptyText
  server_id : Option NonEmptyText
  turn_id : Option NonEmptyText

/-! ## Requests -/

/-- `[!#$%&'*+.^_|~0-9A-Za-z-]` and the grave accent. -/
def isMethodUnit (unit : UInt16) : Bool :=
  isLetter unit || LocalActions.isDigit unit || unit == 0x60 ||
    (Utf16.text "!#$%&'*+-.^_|~").contains unit

/-- `fetch` takes no other method. -/
structure Method where
  text : Text
  token : ∀ unit ∈ text, isMethodUnit unit = true
deriving DecidableEq

/-- What `fetch` takes as a body. -/
inductive Body where
  | text (value : Text)
  | searchParams (serialized : Text)
  | arrayBuffer (bytes : List UInt8)
  | view (buffer : List UInt8) (offset length : Nat)
  /-- A blob, a form or a stream. -/
  | streaming (bytes : List UInt8)

def Body.bytes : Body → List UInt8
  | .text value => Utf16.toUtf8 value
  | .searchParams serialized => Utf16.toUtf8 serialized
  | .arrayBuffer bytes => bytes
  | .view buffer offset length => (buffer.drop offset).take length
  | .streaming bytes => bytes

inductive RequestInput where
  | text (url : Text)
  | url (href : Text)
  | request (method : Method) (url : Text) (body : Option Body)

structure RequestInit where
  method : Option Method
  headers : Dict Text Text
  body : Option Body

/-- `toISOString()` and `randomUUID()` give texts of one line. -/
structure SingleLine where
  text : Text
  single : 0x0A ∉ text

/-- A call of the fetch of an attachment, with the time and the nonce that it takes. -/
structure ProofCall where
  attachment : ProofAttachment
  proofContext : ProofContext
  timestamp : SingleLine
  nonce : SingleLine
  input : RequestInput
  init : RequestInit

def GET : Method := ⟨Utf16.text "GET", by decide⟩

def ProofCall.method (call : ProofCall) : Method :=
  call.init.method.getD
    (match call.input with
    | .request method _ _ => method
    | _ => GET)

def requestUrl : RequestInput → Text
  | .text url => url
  | .url href => href
  | .request _ url _ => url

def ProofCall.body (call : ProofCall) : Option Body :=
  call.init.body.or
    (match call.input with
    | .request _ _ body => body
    | _ => none)

def ProofCall.bodyBytes (call : ProofCall) : List UInt8 := call.body.elim [] Body.bytes

/-! ## What is signed -/

structure McpProofSigningInput where
  key_id : Text
  method : Text
  url : Text
  body_hash : Text
  lease_id : Text
  session_id : Text
  host_id : Text
  provider_instance_id : Text
  workspace_id : Text
  server_id : Text
  turn_id : Option Text
  timestamp : Text
  nonce : Text

section Signing

-- SHA-256
variable (digest : List UInt8 → List UInt8)

def sha256 (bytes : List UInt8) : Text :=
  Utf16.text "sha256:" ++ Utf16.units (Base64.encode (digest bytes))

def hashRequestBody : Option Body → Text
  | none => sha256 digest (Utf16.toUtf8 [])
  | some (.text value) => sha256 digest (Utf16.toUtf8 value)
  | some (.searchParams serialized) => sha256 digest (Utf16.toUtf8 serialized)
  | some (.arrayBuffer bytes) => sha256 digest bytes
  | some (.view buffer offset length) => sha256 digest ((buffer.drop offset).take length)
  | some (.streaming _) => sha256 digest (Utf16.toUtf8 (Utf16.text "[streaming-body]"))

def upper (unit : UInt16) : UInt16 := if isLower unit then unit - 0x20 else unit

def ProofCall.signingInput (call : ProofCall) : McpProofSigningInput where
  key_id := call.attachment.proof_of_possession.key_id.text
  method := call.method.text.map upper
  url := requestUrl call.input
  body_hash := hashRequestBody digest call.init.body
  lease_id := call.attachment.lease_id.text
  session_id := call.proofContext.session_id.text
  host_id := call.proofContext.host_id.text
  provider_instance_id := call.proofContext.provider_instance_id.text
  workspace_id := call.proofContext.workspace_id.text
  server_id := (call.proofContext.server_id.getD call.attachment.name).text
  turn_id := call.proofContext.turn_id.map NonEmptyText.text
  timestamp := call.timestamp.text
  nonce := call.nonce.text

end Signing

def canonicalProofString (input : McpProofSigningInput) : Text :=
  joined 0x0A
    [input.method, input.url, input.body_hash, input.lease_id, input.session_id, input.host_id,
      input.provider_instance_id, input.workspace_id, input.server_id, input.turn_id.getD [],
      input.timestamp, input.nonce]

/-! ## Headers -/

inductive ProofError where
  /-- `Headers.set` throws a `TypeError`. -/
  | invalidHeader
  | binding (attachmentName message : Text)

def isHeaderBlank (unit : UInt16) : Bool :=
  unit == 0x20 || unit == 0x09 || unit == 0x0A || unit == 0x0D

/-- White space around a value is dropped. -/
def normalizedHeader (value : Text) : Text :=
  ((value.dropWhile isHeaderBlank).reverse.dropWhile isHeaderBlank).reverse

/-- A byte other than NUL, CR and LF. -/
def isHeaderUnit (unit : UInt16) : Bool :=
  decide (unit.toNat ≤ 0xFF) && unit != 0x00 && unit != 0x0A && unit != 0x0D

/-- `headers.set(name, value)` -/
def setHeader (headers : Dict Text Text) (header : String × Text) :
    Except ProofError (Dict Text Text) :=
  let value := normalizedHeader header.2
  if value.all isHeaderUnit then .ok (headers.set (Utf16.text header.1) value)
  else .error .invalidHeader

def proofHeaders (input : McpProofSigningInput) (signature : Text) : List (String × Text) :=
  [("x-hcp-proof-key-id", input.key_id), ("x-hcp-lease-id", input.lease_id),
    ("x-hcp-session-id", input.session_id), ("x-hcp-host-id", input.host_id),
    ("x-hcp-provider-instance-id", input.provider_instance_id),
    ("x-hcp-workspace-id", input.workspace_id), ("x-hcp-mcp-server-id", input.server_id),
    ("x-hcp-proof-timestamp", input.timestamp), ("x-hcp-proof-nonce", input.nonce),
    ("x-hcp-proof-body-sha256", input.body_hash), ("x-hcp-proof-signature", signature)] ++
    (input.turn_id.map fun turn_id => ("x-hcp-turn-id", turn_id)).toList

/-- `headers.has(name)`; a name that is no token is refused. -/
def requireHeader (attachment : ProofAttachment) (headers : Dict Text Text) (name : NonEmptyText) :
    Except ProofError Unit :=
  if name.text.all isMethodUnit then
    if (headers.get? (name.text.map lower)).isSome then .ok ()
    else
      .error (.binding attachment.name.text
        (Utf16.text "Required MCP proof header '" ++ name.text ++
          Utf16.text "' was not produced."))
  else .error .invalidHeader

/-- What `fetch` is called with. -/
structure IssuedRequest where
  input : RequestInput
  method : Method
  headers : Dict Text Text
  body : Option Body

/-- A call of the function that `createProofFetch` returns. -/
def createProofFetch (digest : List UInt8 → List UInt8) (proofSigner : McpProofSigningInput → Text)
    (call : ProofCall) : Except ProofError IssuedRequest := do
  let signingInput := call.signingInput digest
  let headers ← (proofHeaders signingInput (proofSigner signingInput)).foldlM setHeader
    call.init.headers
  call.attachment.proof_of_possession.required_headers.forM
    (requireHeader call.attachment headers)
  return { input := call.input, method := call.method, headers, body := call.body }

/-- `createDevelopmentHmacProofSigner` -/
def createDevelopmentHmacProofSigner (hmac : Text → Text → List UInt8) (secret : Text)
    (input : McpProofSigningInput) : Text :=
  Utf16.text "hmac-sha256:" ++
    Utf16.units (Base64.encode (hmac secret (canonicalProofString input)))

/-- Whatever is made of the text that is signed, the signatures are the same. -/
def SameSigned (input other : McpProofSigningInput) : Prop :=
  ∀ hmac secret, createDevelopmentHmacProofSigner hmac secret input =
    createDevelopmentHmacProofSigner hmac secret other

/-! ## What the signed text tells -/

/-- The body is none, or one whose bytes are hashed, and it is not that of a request object. -/
def ProofCall.hashed (call : ProofCall) : Prop :=
  (∀ bytes, call.init.body ≠ some (.streaming bytes)) ∧ call.body = call.init.body

def ProofCall.serverId (call : ProofCall) : NonEmptyText :=
  call.proofContext.server_id.getD call.attachment.name

/-- The ids that a request is made for, empty where there is no turn. -/
def ProofCall.ids (call : ProofCall) : List Text :=
  [call.attachment.lease_id.text, call.proofContext.session_id.text,
    call.proofContext.host_id.text, call.proofContext.provider_instance_id.text,
    call.proofContext.workspace_id.text, call.serverId.text,
    (call.proofContext.turn_id.map NonEmptyText.text).getD []]

theorem canonical_fields (digest : List UInt8 → List UInt8) (call : ProofCall) :
    canonicalProofString (call.signingInput digest) =
      joined 0x0A
        ([call.method.text.map upper, requestUrl call.input] ++
          (hashRequestBody digest call.init.body :: call.ids ++
            [call.timestamp.text, call.nonce.text])) := rfl

theorem sameSigned_iff {input other : McpProofSigningInput} :
    SameSigned input other ↔ canonicalProofString input = canonicalProofString other := by
  constructor
  · intro h
    by_contra hne
    have hsame := h (fun _ text => if text = canonicalProofString input then [0] else [1]) []
    unfold createDevelopmentHmacProofSigner at hsame
    dsimp only at hsame
    rw [if_pos rfl, if_neg (Ne.symm hne)] at hsame
    exact absurd hsame (by decide)
  · intro h hmac secret
    unfold createDevelopmentHmacProofSigner
    rw [h]

theorem units_encode_single (bytes : List UInt8) : 0x0A ∉ Utf16.units (Base64.encode bytes) := by
  intro hmem
  rw [Utf16.units_ascii (Base64.encode_ascii bytes)] at hmem
  obtain ⟨c, hc, hunit⟩ := List.mem_map.mp hmem
  have hascii := Base64.encode_ascii bytes c hc
  have hvalue : c.toNat = 10 := by
    rw [← Utf16.toNat_ofNat (Nat.lt_trans hascii (by decide)), hunit]
    rfl
  have hbreak : c = '\n' := Char.toNat_inj.mp hvalue
  have halphabet := List.all_eq_true.mp (Base64.encode_inAlphabet bytes) c hc
  rw [hbreak] at halphabet
  exact absurd halphabet (by decide)

theorem sha256_single (digest : List UInt8 → List UInt8) (bytes : List UInt8) :
    0x0A ∉ sha256 digest bytes := by
  unfold sha256
  rw [List.mem_append, not_or]
  exact ⟨by decide, units_encode_single _⟩

theorem sha256_injective {digest : List UInt8 → List UInt8} (h : Function.Injective digest)
    {bytes other : List UInt8} (heq : sha256 digest bytes = sha256 digest other) :
    bytes = other := by
  have hdigits := congrArg Utf16.characters (List.append_cancel_left heq)
  rw [Utf16.characters_units, Utf16.characters_units] at hdigits
  have hdecode := congrArg Base64.decode hdigits
  rw [Base64.decode_encode, Base64.decode_encode] at hdecode
  exact h hdecode

theorem body_hash_single (digest : List UInt8 → List UInt8) (body : Option Body) :
    0x0A ∉ hashRequestBody digest body := by
  unfold hashRequestBody
  split <;> exact sha256_single digest _

theorem body_hash_eq (digest : List UInt8 → List UInt8) {call : ProofCall} (h : call.hashed) :
    hashRequestBody digest call.init.body = sha256 digest call.bodyBytes := by
  obtain ⟨hkind, hbody⟩ := h
  unfold ProofCall.bodyBytes
  rw [hbody]
  cases hinit : call.init.body with
  | none => rfl
  | some body =>
    cases body with
    | streaming bytes => exact absurd hinit (hkind bytes)
    | text value => rfl
    | searchParams serialized => rfl
    | arrayBuffer bytes => rfl
    | view buffer offset length => rfl

theorem upper_break {unit : UInt16} (h : upper unit = 0x0A) : unit = 0x0A := by
  unfold upper at h
  split at h
  · rename_i hlower
    unfold isLower at hlower
    simp only [Bool.and_eq_true, decide_eq_true_eq] at hlower
    have hvalue := congrArg UInt16.toNat h
    rw [UInt16.toNat_sub_of_le _ _ (UInt16.le_iff_toNat_le.mpr (Nat.le_trans (by decide) hlower.1))]
      at hvalue
    have hsmall : unit.toNat - 32 = 10 := hvalue
    omega
  · exact h

theorem method_single (call : ProofCall) : 0x0A ∉ call.method.text.map upper := by
  intro hmem
  obtain ⟨unit, hunit, heq⟩ := List.mem_map.mp hmem
  have htoken := call.method.token unit hunit
  rw [upper_break heq] at htoken
  exact absurd htoken (by decide)

theorem nonEmpty_inj {text other : NonEmptyText} (h : text.text = other.text) : text = other := by
  cases text
  cases other
  cases h
  rfl

theorem turn_inj {turn other : Option NonEmptyText}
    (h : (turn.map NonEmptyText.text).getD [] = (other.map NonEmptyText.text).getD []) :
    turn = other := by
  cases turn with
  | none =>
    cases other with
    | none => rfl
    | some other => exact absurd h.symm other.nonempty
  | some turn =>
    cases other with
    | none => exact absurd h turn.nonempty
    | some other => rw [nonEmpty_inj h]

def ProofCall.SameIds (call other : ProofCall) : Prop :=
  call.attachment.lease_id = other.attachment.lease_id ∧
    call.proofContext.session_id = other.proofContext.session_id ∧
    call.proofContext.host_id = other.proofContext.host_id ∧
    call.proofContext.provider_instance_id = other.proofContext.provider_instance_id ∧
    call.proofContext.workspace_id = other.proofContext.workspace_id ∧
    call.serverId = other.serverId ∧ call.proofContext.turn_id = other.proofContext.turn_id

theorem sameIds_of_ids {call other : ProofCall} (h : call.ids = other.ids) :
    call.SameIds other := by
  unfold ProofCall.ids at h
  simp only [List.cons.injEq, and_true] at h
  obtain ⟨hlease, hsession, hhost, hprovider, hworkspace, hserver, hturn⟩ := h
  exact ⟨nonEmpty_inj hlease, nonEmpty_inj hsession, nonEmpty_inj hhost, nonEmpty_inj hprovider,
    nonEmpty_inj hworkspace, nonEmpty_inj hserver, turn_inj hturn⟩

section Binding

variable {digest : List UInt8 → List UInt8} {call other : ProofCall}

theorem bytes_of_hash (hdigest : Function.Injective digest) (hcall : call.hashed)
    (hother : other.hashed)
    (h : hashRequestBody digest call.init.body = hashRequestBody digest other.init.body) :
    call.bodyBytes = other.bodyBytes := by
  rw [body_hash_eq digest hcall, body_hash_eq digest hother] at h
  exact sha256_injective hdigest h

theorem method_of_canonical
    (h : canonicalProofString (call.signingInput digest) =
      canonicalProofString (other.signingInput digest)) :
    call.method.text.map upper = other.method.text.map upper ∧
      joined 0x0A (requestUrl call.input :: hashRequestBody digest call.init.body :: call.ids ++
        [call.timestamp.text, call.nonce.text]) =
      joined 0x0A (requestUrl other.input :: hashRequestBody digest other.init.body :: other.ids ++
        [other.timestamp.text, other.nonce.text]) :=
  first_field (method_single call) (method_single other) h

theorem url_of_canonical (hurl : 0x0A ∉ requestUrl call.input)
    (hother : 0x0A ∉ requestUrl other.input)
    (h : canonicalProofString (call.signingInput digest) =
      canonicalProofString (other.signingInput digest)) :
    requestUrl call.input = requestUrl other.input ∧
      hashRequestBody digest call.init.body = hashRequestBody digest other.init.body := by
  obtain ⟨hsame, hrest⟩ := first_field hurl hother (method_of_canonical h).2
  exact ⟨hsame, (first_field (body_hash_single digest _) (body_hash_single digest _) hrest).1⟩

theorem ids_of_canonical (hids : ∀ id ∈ call.ids, 0x0A ∉ id)
    (hother : ∀ id ∈ other.ids, 0x0A ∉ id)
    (h : canonicalProofString (call.signingInput digest) =
      canonicalProofString (other.signingInput digest)) :
    requestUrl call.input = requestUrl other.input ∧
      hashRequestBody digest call.init.body = hashRequestBody digest other.init.body ∧
      call.ids = other.ids := by
  have hsingle : ∀ {call : ProofCall}, (∀ id ∈ call.ids, 0x0A ∉ id) →
      ∀ field ∈ hashRequestBody digest call.init.body :: call.ids ++
        [call.timestamp.text, call.nonce.text], 0x0A ∉ field := by
    intro call hids
    rw [List.cons_append, List.forall_mem_cons, List.forall_mem_append]
    refine ⟨body_hash_single digest _, hids, ?_⟩
    simp only [List.forall_mem_cons]
    exact ⟨call.timestamp.single, call.nonce.single, List.forall_mem_nil _⟩
  rw [canonical_fields, canonical_fields] at h
  obtain ⟨hfront, hfields⟩ := joined_suffix (List.cons_ne_nil _ _) (List.cons_ne_nil _ _)
    (by rfl) (hsingle hids) (hsingle hother) h
  obtain ⟨hhash, hrest⟩ := List.cons.inj hfields
  exact ⟨(first_field (method_single call) (method_single other) hfront).2, hhash,
    List.append_inj_left hrest rfl⟩

end Binding

/-- Requests of the same signed text are of the same method up to the case of its letters.  They are
of the same URL where their URLs hold no line feed, and of the same URL and ids where their ids hold
none; then their bodies are the same too, if they are of the kinds whose bytes are hashed. -/
theorem proof_binds_request {digest : List UInt8 → List UInt8} (hdigest : Function.Injective digest)
    {call other : ProofCall}
    (h : SameSigned (call.signingInput digest) (other.signingInput digest)) :
    call.method.text.map upper = other.method.text.map upper ∧
      (0x0A ∉ requestUrl call.input → 0x0A ∉ requestUrl other.input →
        requestUrl call.input = requestUrl other.input ∧
          (call.hashed → other.hashed → call.bodyBytes = other.bodyBytes)) ∧
      ((∀ id ∈ call.ids, 0x0A ∉ id) → (∀ id ∈ other.ids, 0x0A ∉ id) →
        requestUrl call.input = requestUrl other.input ∧ call.SameIds other ∧
          (call.hashed → other.hashed → call.bodyBytes = other.bodyBytes)) := by
  have htext := sameSigned_iff.mp h
  refine ⟨(method_of_canonical htext).1, ?_, ?_⟩
  · intro hurl hotherUrl
    obtain ⟨hsame, hhash⟩ := url_of_canonical hurl hotherUrl htext
    exact ⟨hsame, fun hcall hother => bytes_of_hash hdigest hcall hother hhash⟩
  · intro hids hotherIds
    obtain ⟨hsame, hhash, hall⟩ := ids_of_canonical hids hotherIds htext
    exact ⟨hsame, sameIds_of_ids hall,
      fun hcall hother => bytes_of_hash hdigest hcall hother hhash⟩

/-! ## What the signed text does not tell -/

def sampleId (text : String) (h : Utf16.text text ≠ []) : NonEmptyText := ⟨Utf16.text text, h⟩

def sampleCall (key lease session : NonEmptyText) (method : Method) (body : Body) : ProofCall where
  attachment :=
    { name := sampleId "docs" (by decide)
      lease_id := lease
      proof_of_possession :=
        { key_id := key
          required_headers := [sampleId "x-hcp-proof-signature" (by decide)]
          some_header := List.cons_ne_nil _ _ } }
  proofContext :=
    { session_id := session
      host_id := sampleId "host" (by decide)
      provider_instance_id := sampleId "codex" (by decide)
      workspace_id := sampleId "workspace" (by decide)
      server_id := none
      turn_id := none }
  timestamp := ⟨Utf16.text "2026-01-01T00:00:00.000Z", by decide⟩
  nonce := ⟨Utf16.text "00000000-0000-4000-8000-000000000000", by decide⟩
  input := .url (Utf16.text "https://example.com/mcp")
  init := { method := some method, headers := Dict.empty, body := some body }

def POST : Method := ⟨Utf16.text "POST", by decide⟩

def plainCall : ProofCall :=
  sampleCall (sampleId "key" (by decide)) (sampleId "a" (by decide)) (sampleId "b" (by decide)) POST
    (.text (Utf16.text "\x7b\x7d"))

def otherKey : ProofCall :=
  sampleCall (sampleId "other" (by decide)) (sampleId "a" (by decide)) (sampleId "b" (by decide))
    POST (.text (Utf16.text "\x7b\x7d"))

theorem other_key_bound :
    SameSigned (plainCall.signingInput id) (otherKey.signingInput id) ∧
      plainCall.bodyBytes = otherKey.bodyBytes ∧ plainCall.SameIds otherKey := by
  have hsame : SameSigned (plainCall.signingInput id) (otherKey.signingInput id) :=
    sameSigned_iff.mpr (by decide +kernel)
  have hbound := proof_binds_request Function.injective_id hsame
  obtain ⟨-, hids, hbody⟩ := hbound.2.2 (by decide +kernel) (by decide +kernel)
  exact ⟨hsame, hbody ⟨fun bytes => nofun, rfl⟩ ⟨fun bytes => nofun, rfl⟩, hids⟩

/-- A line feed at the end of the lease id, or at the front of the session id. -/
def leaseBreak : ProofCall :=
  sampleCall (sampleId "key" (by decide)) (sampleId "a\n" (by decide)) (sampleId "b" (by decide))
    POST (.text (Utf16.text "\x7b\x7d"))

def sessionBreak : ProofCall :=
  sampleCall (sampleId "key" (by decide)) (sampleId "a" (by decide)) (sampleId "\nb" (by decide))
    POST (.text (Utf16.text "\x7b\x7d"))

def namedStream : ProofCall :=
  sampleCall (sampleId "key" (by decide)) (sampleId "a" (by decide)) (sampleId "b" (by decide)) POST
    (.text (Utf16.text "[streaming-body]"))

def blob : ProofCall :=
  sampleCall (sampleId "key" (by decide)) (sampleId "a" (by decide)) (sampleId "b" (by decide)) POST
    (.streaming [0])

def lowerPatch : ProofCall :=
  sampleCall (sampleId "key" (by decide)) (sampleId "a" (by decide)) (sampleId "b" (by decide))
    ⟨Utf16.text "patch", by decide⟩ (.text [])

def upperPatch : ProofCall :=
  sampleCall (sampleId "key" (by decide)) (sampleId "a" (by decide)) (sampleId "b" (by decide))
    ⟨Utf16.text "PATCH", by decide⟩ (.text [])

/-- The request is made. -/
def ProofCall.issued (call : ProofCall) : Bool :=
  (createProofFetch id (fun _ => Utf16.text "signature") call).isOk

def sameText (call other : ProofCall) : Prop :=
  call.issued = true ∧ other.issued = true ∧
    SameSigned (call.signingInput id) (other.signingInput id)

theorem proof_binds_less :
    (sameText plainCall otherKey ∧
      plainCall.attachment.proof_of_possession.key_id ≠
        otherKey.attachment.proof_of_possession.key_id) ∧
    (sameText leaseBreak sessionBreak ∧
      leaseBreak.attachment.lease_id ≠ sessionBreak.attachment.lease_id ∧
      leaseBreak.proofContext.session_id ≠ sessionBreak.proofContext.session_id) ∧
    (sameText namedStream blob ∧ namedStream.bodyBytes ≠ blob.bodyBytes) ∧
    (sameText lowerPatch upperPatch ∧ lowerPatch.method ≠ upperPatch.method) := by
  unfold sameText
  rw [sameSigned_iff, sameSigned_iff, sameSigned_iff, sameSigned_iff]
  refine ⟨⟨⟨?_, ?_, ?_⟩, ?_⟩, ⟨⟨?_, ?_, ?_⟩, ?_, ?_⟩, ⟨⟨?_, ?_, ?_⟩, ?_⟩, ⟨?_, ?_, ?_⟩, ?_⟩ <;>
    decide +kernel

end HarnessControl.Mcp
