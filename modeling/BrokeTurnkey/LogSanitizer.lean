import BrokeTurnkey.Redaction
import BrokeTurnkey.Text

/-!
# What the API logs of a request

`apps/api/src/common/logging.interceptor.ts`: bodies are logged as copies in which the
value under every key that contains a sensitive word is replaced.  A copy is built key by
key with assignments to an empty object, and an assignment to `__proto__` adds no
property but sets the prototype.
-/

namespace BrokeTurnkey

/-- The scalars of JSON, over any kind of numbers. -/
inductive Scalar (ν : Type) where
  | null
  | bool (b : Bool)
  | num (n : ν)
  | str (s : Text)
deriving DecidableEq

/-- A JSON value. -/
abbrev LogValue (ν : Type) := Document Text (Scalar ν)

section

variable {ν : Type} (toLowerCase : Text → Text)

def sensitiveFields : List Text :=
  ["password", "token", "secret", "apikey", "api_key", "authorization", "privatekey",
    "private_key", "publickey", "public_key", "mnemonic", "seed", "encrypted", "dek",
    "bootstrap", "nonce"].map String.toList

/-- The lower-cased key contains one of the words. -/
def isSensitive (key : Text) : Bool :=
  let lowerKey := toLowerCase key
  sensitiveFields.any fun field => Text.includes lowerKey field

def redacted : Scalar ν := .str "[REDACTED]".toList

/-- The key whose assignment adds no property. -/
def protoKey : Text := "__proto__".toList

mutual

def sanitizeForLog : LogValue ν → LogValue ν
  | .scalar value => .scalar value
  | .arr items => .arr (sanitizeItems items)
  | .obj fields => .obj (sanitizeFields fields)

def sanitizeItems : List (LogValue ν) → List (LogValue ν)
  | [] => []
  | item :: rest => sanitizeForLog item :: sanitizeItems rest

/-- The properties of the copy; the keys of an object are distinct. -/
def sanitizeFields : List (Text × LogValue ν) → List (Text × LogValue ν)
  | [] => []
  | (key, val) :: rest =>
    let sanitized := if isSensitive toLowerCase key then .scalar redacted else sanitizeForLog val
    if key = protoKey then sanitizeFields rest else (key, sanitized) :: sanitizeFields rest

end

/-- What becomes of a property. -/
def sanitizeField (field : Text × LogValue ν) : Option (Text × LogValue ν) :=
  if field.1 = protoKey then none
  else some (field.1, if isSensitive toLowerCase field.1 then .scalar redacted
    else sanitizeForLog toLowerCase field.2)

@[simp] theorem sanitize_scalar (value : Scalar ν) :
    sanitizeForLog toLowerCase (.scalar value) = .scalar value := by
  rw [sanitizeForLog]

@[simp] theorem sanitize_arr (items : List (LogValue ν)) :
    sanitizeForLog toLowerCase (.arr items) = .arr (items.map (sanitizeForLog toLowerCase)) := by
  rw [sanitizeForLog]
  congr 1
  induction items with
  | nil => rw [sanitizeItems, List.map_nil]
  | cons item rest ih => rw [sanitizeItems, List.map_cons, ih]

@[simp] theorem sanitize_obj (fields : List (Text × LogValue ν)) :
    sanitizeForLog toLowerCase (.obj fields) =
      .obj (fields.filterMap (sanitizeField toLowerCase)) := by
  rw [sanitizeForLog]
  congr 1
  induction fields with
  | nil => rw [sanitizeFields, List.filterMap_nil]
  | cons field rest ih =>
    rw [sanitizeFields, List.filterMap_cons, ih, sanitizeField]
    by_cases hproto : field.1 = protoKey
    · rw [if_pos hproto, if_pos hproto]
    · rw [if_neg hproto, if_neg hproto]

end

/-! ### Secrets -/

section

variable {ν : Type} {toLowerCase : Text → Text} {v w : LogValue ν}

/-- The values differ only in what is stored under sensitive keys. -/
abbrev Indistinguishable (toLowerCase : Text → Text) (v w : LogValue ν) : Prop :=
  v.Agree (isSensitive toLowerCase) w

/-- A key that adds no property is used outside of what is redacted. -/
abbrev ShowsProto (toLowerCase : Text → Text) (v : LogValue ν) : Prop :=
  v.Shows (isSensitive toLowerCase) protoKey

/-- The value with its secrets redacted and nothing else changed. -/
abbrev redactSecrets (toLowerCase : Text → Text) (v : LogValue ν) : LogValue ν :=
  v.redact (isSensitive toLowerCase) redacted

theorem sanitize_redactField {field : Text × LogValue ν}
    (h : sanitizeForLog toLowerCase (redactSecrets toLowerCase field.2) =
      sanitizeForLog toLowerCase field.2) :
    sanitizeField toLowerCase (Document.redactField (isSensitive toLowerCase) redacted field) =
      sanitizeField toLowerCase field := by
  have hkey : (Document.redactField (isSensitive toLowerCase) redacted field).1 = field.1 := rfl
  rw [sanitizeField, sanitizeField]
  by_cases hproto : field.1 = protoKey
  · rw [if_pos (hkey.trans hproto), if_pos hproto]
  · rw [if_neg fun heq => hproto (hkey.symm.trans heq), if_neg hproto, hkey,
      Document.redactField]
    cases hsensitive : isSensitive toLowerCase field.1 with
    | true => rfl
    | false => rw [if_neg Bool.noConfusion, if_neg Bool.noConfusion, if_neg Bool.noConfusion, h]

/-- Only the redacted value is read. -/
theorem sanitize_redact (v : LogValue ν) :
    sanitizeForLog toLowerCase (redactSecrets toLowerCase v) = sanitizeForLog toLowerCase v := by
  induction v using Document.induction with
  | scalar value => rw [redactSecrets, Document.redact_scalar]
  | arr items ih =>
    rw [redactSecrets, Document.redact_arr, sanitize_arr, sanitize_arr, List.map_map]
    congr 1
    exact List.map_congr_left ih
  | obj fields ih =>
    rw [redactSecrets, Document.redact_obj, sanitize_obj, sanitize_obj, List.filterMap_map]
    congr 1
    apply List.filterMap_congr
    intro field hfield
    exact sanitize_redactField (ih field hfield)

/-- The redaction finds nothing more in the copy. -/
theorem redact_sanitize (v : LogValue ν) :
    redactSecrets toLowerCase (sanitizeForLog toLowerCase v) = sanitizeForLog toLowerCase v := by
  induction v using Document.induction with
  | scalar value => rw [sanitize_scalar, redactSecrets, Document.redact_scalar]
  | arr items ih =>
    rw [sanitize_arr, redactSecrets, Document.redact_arr, List.map_map]
    congr 1
    exact List.map_congr_left ih
  | obj fields ih =>
    rw [sanitize_obj, redactSecrets, Document.redact_obj, List.map_filterMap]
    congr 1
    apply List.filterMap_congr
    intro field hfield
    rw [sanitizeField]
    by_cases hproto : field.1 = protoKey
    · rw [if_pos hproto, Option.map_none]
    · rw [if_neg hproto, Option.map_some, Document.redactField]
      cases hsensitive : isSensitive toLowerCase field.1 with
      | true => rfl
      | false =>
        rw [if_neg Bool.noConfusion, if_neg Bool.noConfusion]
        exact congrArg (fun value => some (field.1, value)) (ih field hfield)

/-- Nothing but secrets is changed unless a key that adds no property is used. -/
theorem sanitize_eq_redact_iff : sanitizeForLog toLowerCase v = redactSecrets toLowerCase v ↔
    ¬ShowsProto toLowerCase v := by
  induction v using Document.induction with
  | scalar value =>
    rw [sanitize_scalar, redactSecrets, Document.redact_scalar]
    exact iff_of_true rfl (Document.not_shows_scalar _ _)
  | arr items ih =>
    rw [sanitize_arr, redactSecrets, Document.redact_arr, Document.arr.injEq, List.map_inj_left,
      ShowsProto, Document.shows_arr_iff, not_exists]
    constructor
    · rintro h item ⟨hitem, hshows⟩
      exact (ih item hitem).mp (h item hitem) hshows
    · intro h item hitem
      exact (ih item hitem).mpr fun hshows => h item ⟨hitem, hshows⟩
  | obj fields ih =>
    rw [sanitize_obj, redactSecrets, Document.redact_obj, Document.obj.injEq,
      List.filterMap_eq_map_iff_forall_eq_some, ShowsProto, Document.shows_obj_iff, not_exists]
    have hfield : ∀ field ∈ fields, sanitizeField toLowerCase field =
        some (Document.redactField (isSensitive toLowerCase) redacted field) ↔
        ¬(field.1 = protoKey ∨ isSensitive toLowerCase field.1 = false ∧
          ShowsProto toLowerCase field.2) := by
      intro field hfield
      have hvalue := ih field hfield
      rw [sanitizeField, Document.redactField, not_or]
      by_cases hproto : field.1 = protoKey
      · rw [if_pos hproto]
        exact iff_of_false (Option.some_ne_none _).symm (fun h => h.1 hproto)
      · rw [if_neg hproto]
        cases hsensitive : isSensitive toLowerCase field.1 with
        | true => simp [hproto]
        | false => simpa [hproto] using hvalue
    constructor
    · rintro h field ⟨hmem, hshows⟩
      exact (hfield field hmem).mp (h field hmem) hshows
    · intro h field hmem
      exact (hfield field hmem).mpr fun hshows => h field ⟨hmem, hshows⟩

/-- **Logging is blind to secrets.** -/
theorem Indistinguishable.sanitize_eq (h : Indistinguishable toLowerCase v w) :
    sanitizeForLog toLowerCase v = sanitizeForLog toLowerCase w := by
  have hredact : redactSecrets toLowerCase v = redactSecrets toLowerCase w := h.redact_eq
  rw [← sanitize_redact v, hredact, sanitize_redact]

/-- Nothing but secrets is changed exactly if the copy is the redacted value. -/
theorem indistinguishable_sanitize_iff :
    Indistinguishable toLowerCase v (sanitizeForLog toLowerCase v) ↔
      ¬ShowsProto toLowerCase v := by
  rw [Indistinguishable, @Document.agree_iff _ _ _ redacted, ← sanitize_eq_redact_iff, eq_comm]
  exact Eq.congr_left (redact_sanitize v)

end

/-- **What a logged copy has of a value.**  Values that differ only in secrets have equal
    copies; and everything but the secrets is preserved, so that a second copy is equal to
    the first, exactly if no `__proto__` is used outside of what is redacted. -/
theorem sanitizeForLog_iff {ν : Type} (toLowerCase : Text → Text) (v : LogValue ν) :
    (∀ w, Indistinguishable toLowerCase v w →
      sanitizeForLog toLowerCase v = sanitizeForLog toLowerCase w) ∧
    (Indistinguishable toLowerCase v (sanitizeForLog toLowerCase v) ∧
        sanitizeForLog toLowerCase (sanitizeForLog toLowerCase v) = sanitizeForLog toLowerCase v ↔
      ¬ShowsProto toLowerCase v) := by
  refine ⟨fun w h => h.sanitize_eq, ?_⟩
  rw [← indistinguishable_sanitize_iff]
  exact ⟨And.left, fun h => ⟨h, h.sanitize_eq.symm⟩⟩

namespace LogSample

def amount : Text := "amount".toList

def approvals : Text := "approvals".toList

def apiToken : Text := "apiToken".toList

/-- A transfer that is asked for with a token. -/
def transfer (token : Text) : LogValue Nat :=
  .obj [(amount, .scalar (.num 1)), (approvals, .arr [.obj [(apiToken, .scalar (.str token))]])]

/-- A body with a `__proto__`. -/
def polluted : LogValue Nat :=
  .obj [(amount, .scalar (.num 1)), (protoKey, .obj [(amount, .scalar (.num 2))])]

theorem isSensitive_keys : isSensitive Text.lower amount = false ∧
    isSensitive Text.lower approvals = false ∧ isSensitive Text.lower apiToken = true := by
  decide

theorem keys_ne_proto : amount ≠ protoKey ∧ approvals ≠ protoKey ∧ apiToken ≠ protoKey := by
  decide

theorem indistinguishable_transfer (token token' : Text) :
    Indistinguishable Text.lower (transfer token) (transfer token') := by
  apply (@Document.agree_iff _ _ _ redacted _ _).mpr
  simp [transfer, Document.redactField, isSensitive_keys]

theorem not_showsProto_transfer (token : Text) : ¬ShowsProto Text.lower (transfer token) := by
  simp [ShowsProto, transfer, Document.shows_obj_iff, Document.shows_arr_iff,
    Document.not_shows_scalar, keys_ne_proto]

end LogSample

open LogSample in
/-- Two tokens in an array, and a copy of the copy. -/
theorem sanitizeForLog_iff_tokens :
    sanitizeForLog Text.lower (transfer "first".toList) =
        sanitizeForLog Text.lower (transfer "second".toList) ∧
      sanitizeForLog Text.lower (sanitizeForLog Text.lower (transfer "first".toList)) =
        sanitizeForLog Text.lower (transfer "first".toList) := by
  obtain ⟨hblind, hiff⟩ := sanitizeForLog_iff Text.lower (transfer "first".toList)
  exact ⟨hblind _ (indistinguishable_transfer _ _), (hiff.mpr (not_showsProto_transfer _)).2⟩

open LogSample in
/-- What is stored under `__proto__` is left out of the copy. -/
theorem sanitizeForLog_drops :
    sanitizeForLog Text.lower polluted = .obj [(amount, .scalar (.num 1))] ∧
      ¬Indistinguishable Text.lower polluted (sanitizeForLog Text.lower polluted) := by
  constructor
  · simp [polluted, sanitizeField, isSensitive_keys, keys_ne_proto]
  · intro h
    have hshows : ShowsProto Text.lower polluted :=
      .here (List.mem_cons_of_mem _ List.mem_cons_self) rfl
    exact indistinguishable_sanitize_iff.mp h hshows

/-! ### The log of a request -/

/-- A response with the time it took. -/
structure Responded (ν : Type) where
  timestamp : Text
  statusCode : Nat
  duration : Nat
  responseData : Option (LogValue ν)

/-- A request, and its response unless the handler throws. -/
structure Exchange (ν : Type) where
  timestamp : Text
  method : Text
  url : Text
  body : Option (LogValue ν)
  userAgent : Option Text
  ip : Option Text
  response : Option (Responded ν)

inductive LogRecord (ν : Type) where
  | request (timestamp method url : Text) (body : Option (LogValue ν)) (userAgent ip : Option Text)
  | response (timestamp method url : Text) (statusCode : Nat) (duration : Text)
      (responseBody : Option (LogValue ν))

namespace LoggingInterceptor

variable {ν : Type} (toLowerCase : Text → Text)

def requestRecord (x : Exchange ν) : LogRecord ν :=
  .request x.timestamp x.method x.url (x.body.map (sanitizeForLog toLowerCase)) x.userAgent x.ip

def responseRecord (x : Exchange ν) (response : Responded ν) : LogRecord ν :=
  .response response.timestamp x.method x.url response.statusCode
    (Text.decimal response.duration ++ "ms".toList)
    (response.responseData.map (sanitizeForLog toLowerCase))

/-- What is logged. -/
def intercept (x : Exchange ν) : List (LogRecord ν) :=
  requestRecord toLowerCase x :: (x.response.map (responseRecord toLowerCase x)).toList

variable {toLowerCase}

theorem map_sanitize_eq {body body' : Option (LogValue ν)}
    (h : body.Rel (Indistinguishable toLowerCase) body') :
    body.map (sanitizeForLog toLowerCase) = body'.map (sanitizeForLog toLowerCase) := by
  cases h with
  | some h => exact congrArg some h.sanitize_eq
  | none => rfl

/-- Requests whose bodies differ only in secrets are logged alike, with responses that
    differ only in secrets. -/
theorem intercept_eq (x : Exchange ν) {body : Option (LogValue ν)}
    (hbody : x.body.Rel (Indistinguishable toLowerCase) body) {response response' : Responded ν}
    (hresponse : response.responseData.Rel (Indistinguishable toLowerCase) response'.responseData)
    (hsame : response' = { response with responseData := response'.responseData }) :
    intercept toLowerCase { x with response := some response } =
      intercept toLowerCase { x with body, response := some response' } := by
  rw [hsame]
  simp only [intercept, requestRecord, responseRecord, map_sanitize_eq hbody,
    map_sanitize_eq hresponse, Option.map_some]

end LoggingInterceptor

end BrokeTurnkey
