import BrokeTurnkey.Numerals
import BrokeTurnkey.Api.StampGuard

/-!
# The spellings of a stamp

The guard reads a header into signature bytes, a number and a key id, and goes on with
these.  A client writes the header in one way.  The guard reads it in more: the number
may have zeros in front, and the decoder of the signature takes both alphabets, stops
at the first `=`, drops every other character of neither alphabet and ignores bits that
are left over.
-/

namespace BrokeTurnkey

open Interaction Text

/-! ### The parts of a text -/

/-- No part of a split text has the separator. -/
theorem not_mem_of_mem_splitOn {sep : Char} {s : Text} : ∀ part ∈ s.splitOn sep, sep ∉ part := by
  induction s with
  | nil => simp [List.splitOn_nil]
  | cons c rest ih =>
    rw [List.splitOn_cons_eq_if_modifyHead]
    by_cases hsep : (c == sep) = true
    · rw [if_pos hsep, List.forall_mem_cons]
      exact ⟨List.not_mem_nil, ih⟩
    · rw [if_neg hsep]
      cases hsplit : rest.splitOn sep with
      | nil => simp
      | cons first others =>
        rw [hsplit, List.forall_mem_cons] at ih
        rw [List.modifyHead_cons, List.forall_mem_cons]
        refine ⟨?_, ih.2⟩
        rw [List.mem_cons, not_or]
        refine ⟨?_, ih.1⟩
        rintro rfl
        exact hsep (beq_self_eq_true _)

/-- Three parts between two separators. -/
theorem splitOn_eq_three {sep : Char} {s a b c : Text} : s.splitOn sep = [a, b, c] ↔
    s = a ++ sep :: (b ++ sep :: c) ∧ sep ∉ a ∧ sep ∉ b ∧ sep ∉ c := by
  constructor
  · intro hsplit
    have hparts : ∀ part ∈ s.splitOn sep, sep ∉ part := not_mem_of_mem_splitOn
    have hwhole : [sep].intercalate (s.splitOn sep) = s := List.intercalate_splitOn sep
    rw [hsplit] at hparts hwhole
    simp only [List.forall_mem_cons] at hparts
    refine ⟨?_, hparts.1, hparts.2.1, hparts.2.2.1⟩
    rw [← hwhole]
    simp [List.intercalate]
  · rintro ⟨rfl, ha, hb, hc⟩
    rw [List.splitOn_append_cons_self_of_not_mem ha, List.splitOn_append_cons_self_of_not_mem hb,
      List.splitOn_eq_singleton hc]

namespace StampVerifierGuard

/-! ### What is read -/

/-- The header a client sends. -/
def canonicalStamp (signature : List UInt8) (timestamp : Nat) (keyId : Text) : Text :=
  Base64url.encode signature ++ '.' :: (decimal timestamp ++ '.' :: keyId)

/-- The header is spelled as clients spell it: the signature in the url alphabet without
    anything left over, the number without zeros in front. -/
def SpelledStrictly (header : Text) : Prop :=
  ∃ signatureB64 timestampMs keyId, header.splitOn '.' = [signatureB64, timestampMs, keyId] ∧
    Base64url.Canonical signatureB64 ∧ (timestampMs.head? = some '0' → timestampMs = ['0'])

theorem parseStamp_eq_ok {header : Text} {stamp : Parsed} : parseStamp header = .ok stamp ↔
    ∃ timestampMs, header.splitOn '.' = [stamp.signatureB64, timestampMs, stamp.keyId] ∧
      parseTimestamp timestampMs = some stamp.timestamp := by
  simp only [parseStamp]
  constructor
  · intro h
    split at h
    · rename_i signatureB64 timestampMs keyId hsplit
      split at h
      · rename_i timestamp htimestamp
        cases h
        exact ⟨timestampMs, hsplit, htimestamp⟩
      · cases h
    · cases h
  · rintro ⟨timestampMs, hsplit, htimestamp⟩
    rw [hsplit]
    simp only [htimestamp]

theorem parseTimestamp_eq_some {timestampMs : Text} {timestamp : Nat} :
    parseTimestamp timestampMs = some timestamp ↔
      timestampMs.length ≤ 16 ∧ parseDecimal timestampMs = some timestamp := by
  rw [parseTimestamp]
  split
  · rename_i hlength
    exact (and_iff_right hlength).symm
  · rename_i hlength
    simp [hlength]

theorem dot_not_mem_encode (bytes : List UInt8) : '.' ∉ Base64url.encode bytes := by
  intro hmem
  exact absurd (Base64url.mem_encode hmem) (by decide)

/-- The canonical spelling is read back. -/
theorem reads_canonicalStamp {timestamp : Nat} (hlength : (decimal timestamp).length ≤ 16)
    {keyId : Text} (hkey : '.' ∉ keyId) (signature : List UInt8) :
    parseStamp (canonicalStamp signature timestamp keyId) =
      .ok ⟨Base64url.encode signature, timestamp, keyId⟩ := by
  apply parseStamp_eq_ok.mpr
  refine ⟨decimal timestamp, ?_, ?_⟩
  · apply splitOn_eq_three.mpr
    have hdecimal := parseDecimal_decimal timestamp
    exact ⟨rfl, dot_not_mem_encode signature, not_mem_of_parseDecimal (by decide) hdecimal, hkey⟩
  · exact parseTimestamp_eq_some.mpr ⟨hlength, parseDecimal_decimal timestamp⟩

/-- **A header is the canonical one of what it is read as if it is spelled strictly.** -/
theorem eq_canonicalStamp_iff {header : Text} {stamp : Parsed}
    (h : parseStamp header = .ok stamp) :
    header = canonicalStamp (Base64url.decode stamp.signatureB64) stamp.timestamp stamp.keyId ↔
      SpelledStrictly header := by
  obtain ⟨timestampMs, hsplit, htimestamp⟩ := parseStamp_eq_ok.mp h
  have hnumber := (parseTimestamp_eq_some.mp htimestamp).2
  obtain ⟨hheader, hsignature, htime, hkey⟩ := splitOn_eq_three.mp hsplit
  have hstrict : SpelledStrictly header ↔ Base64url.Canonical stamp.signatureB64 ∧
      (timestampMs.head? = some '0' → timestampMs = ['0']) := by
    constructor
    · rintro ⟨signatureB64, timestampMs', keyId, hsplit', hcanonical, hzero⟩
      rw [hsplit, List.cons.injEq, List.cons.injEq] at hsplit'
      obtain ⟨rfl, rfl, _⟩ := hsplit'
      exact ⟨hcanonical, hzero⟩
    · rintro ⟨hcanonical, hzero⟩
      exact ⟨_, _, _, hsplit, hcanonical, hzero⟩
  rw [hstrict, ← Base64url.encode_decode_iff, ← decimal_eq_iff hnumber, canonicalStamp]
  constructor
  · intro heq
    rw [hheader] at heq
    obtain ⟨hsig, hrest⟩ := append_cons_inj hsignature (dot_not_mem_encode _) heq
    have hdecimal := parseDecimal_decimal stamp.timestamp
    obtain ⟨htext, _⟩ := append_cons_inj htime (not_mem_of_parseDecimal (by decide) hdecimal) hrest
    exact ⟨hsig.symm, htext.symm⟩
  · rintro ⟨hsig, htext⟩
    rw [hsig, htext]
    exact hheader

/-! ### What is accepted -/

/-- The guard lets the request through as the user. -/
def Admits (cfg : ApiConfig) (route : Route) (request : HttpRequest) (w : ApiWorld)
    (user : AuthUser) : Prop :=
  ∃ history w' history', Completes (api cfg) Guard.any (canActivate cfg route request) w history
    (.ok (some user)) w' history'

variable {cfg : ApiConfig} {route : Route} {request : HttpRequest} {w : ApiWorld} {user : AuthUser}

theorem admits_iff : Admits cfg route request w user ↔
    route.isPublic = false ∧ ∃ stamp key, Accepts cfg request w stamp key ∧ user = key.user := by
  constructor
  · rintro ⟨history, w', history', hrun⟩
    constructor
    · by_contra hpublic
      rw [canActivate, if_pos (by simpa using hpublic)] at hrun
      cases hrun
    · exact (hrun.meets canActivate_meets).2 user rfl
  · rintro ⟨hroute, stamp, key, haccepts, rfl⟩
    obtain ⟨history', hrun⟩ := haccepts.attains hroute []
    exact ⟨[], w, history', hrun⟩

/-- A header that is read as the same signature, number and key id is accepted too. -/
theorem Accepts.respell {stamp stamp' : Parsed} {key : ApiKey} {header : Text}
    (h : Accepts cfg request w stamp key) (hparsed : parseStamp header = .ok stamp')
    (hsignature : Base64url.decode stamp'.signatureB64 = Base64url.decode stamp.signatureB64)
    (htimestamp : stamp'.timestamp = stamp.timestamp) (hkey : stamp'.keyId = stamp.keyId) :
    Accepts cfg { request with xStamp := some header } w stamp' key where
  parsed := by
    have hne : header ≠ [] := by
      rintro rfl
      cases hparsed
    have htruthy : truthy (some header) = some header := by simp [truthy, hne]
    rw [htruthy, Option.map_some, hparsed]
  timely := htimestamp ▸ h.timely
  found := hkey ▸ h.found
  active := h.active
  unexpired := h.unexpired
  signed := by
    have hsigned := h.signed
    rw [checkSignature] at hsigned ⊢
    rw [hsignature, htimestamp]
    exact hsigned

theorem Accepts.parsed_header {stamp : Parsed} {key : ApiKey} {header : Text}
    (h : Accepts cfg request w stamp key) (hheader : request.xStamp = some header) :
    parseStamp header = .ok stamp := by
  have hparsed := h.parsed
  rw [hheader] at hparsed
  obtain ⟨other, hother, hstamp⟩ := Option.map_eq_some_iff.mp hparsed
  rw [truthy, Option.filter_eq_some_iff, Option.some.injEq] at hother
  rw [hother.1]
  exact hstamp

/-- The length of the number that was read allows for its printed form. -/
theorem length_decimal_timestamp {header : Text} {stamp : Parsed}
    (h : parseStamp header = .ok stamp) : (decimal stamp.timestamp).length ≤ 16 := by
  obtain ⟨timestampMs, _, htimestamp⟩ := parseStamp_eq_ok.mp h
  obtain ⟨hlength, hnumber⟩ := parseTimestamp_eq_some.mp htimestamp
  exact (length_decimal_le hnumber).trans hlength

/-- The same stamp with a character in front of the signature that the decoder drops. -/
theorem exists_respelled {header : Text} {stamp : Parsed} (h : parseStamp header = .ok stamp) :
    ∃ other signatureB64, other ≠ header ∧
      parseStamp other = .ok ⟨signatureB64, stamp.timestamp, stamp.keyId⟩ ∧
      Base64url.decode signatureB64 = Base64url.decode stamp.signatureB64 := by
  obtain ⟨timestampMs, hsplit, htimestamp⟩ := parseStamp_eq_ok.mp h
  obtain ⟨hheader, hsignature, htime, hkey⟩ := splitOn_eq_three.mp hsplit
  refine ⟨('!' :: stamp.signatureB64) ++ '.' :: (timestampMs ++ '.' :: stamp.keyId),
    '!' :: stamp.signatureB64, ?_, ?_, ?_⟩
  · intro heq
    have hlength := congrArg List.length (heq.trans hheader)
    simp only [List.length_append, List.length_cons] at hlength
    omega
  · apply parseStamp_eq_ok.mpr
    refine ⟨timestampMs, splitOn_eq_three.mpr ⟨rfl, ?_, htime, hkey⟩, htimestamp⟩
    rw [List.mem_cons, not_or]
    exact ⟨by decide, hsignature⟩
  · have hdropped : Base64url.value '!' = none := by decide
    simp [Base64url.decode, Base64url.unpadded, hdropped]

end StampVerifierGuard

open StampVerifierGuard

/-- **Which stamps are canonical.**  The header of an accepted request is the canonical
    one of the signature, the number and the key id it is read as, exactly if it is
    spelled strictly.  The canonical header is always accepted as well, and so is yet
    another one, so a stamp never has one header alone. -/
theorem stamp_canonical_iff (cfg : ApiConfig) (route : Route) (request : HttpRequest)
    (header : Text) (w : ApiWorld) (user : AuthUser) (hheader : request.xStamp = some header)
    (hadmits : Admits cfg route request w user) :
    ∃ stamp, parseStamp header = .ok stamp ∧
      (header = canonicalStamp (Base64url.decode stamp.signatureB64) stamp.timestamp stamp.keyId ↔
        SpelledStrictly header) ∧
      Admits cfg route { request with xStamp := some (canonicalStamp
        (Base64url.decode stamp.signatureB64) stamp.timestamp stamp.keyId) } w user ∧
      ∃ other signatureB64, other ≠ header ∧
        parseStamp other = .ok ⟨signatureB64, stamp.timestamp, stamp.keyId⟩ ∧
        Base64url.decode signatureB64 = Base64url.decode stamp.signatureB64 ∧
        Admits cfg route { request with xStamp := some other } w user := by
  obtain ⟨hroute, stamp, key, haccepts, rfl⟩ := admits_iff.mp hadmits
  have hparsed := haccepts.parsed_header hheader
  refine ⟨stamp, hparsed, eq_canonicalStamp_iff hparsed, ?_, ?_⟩
  · obtain ⟨_, hsplit, _⟩ := parseStamp_eq_ok.mp hparsed
    have hcanonical := reads_canonicalStamp (length_decimal_timestamp hparsed)
      (splitOn_eq_three.mp hsplit).2.2.2 (Base64url.decode stamp.signatureB64)
    apply admits_iff.mpr
    exact ⟨hroute, _, key, haccepts.respell hcanonical (Base64url.decode_encode _) rfl rfl, rfl⟩
  · obtain ⟨other, signatureB64, hne, hother, hsame⟩ := exists_respelled hparsed
    refine ⟨other, signatureB64, hne, hother, hsame, ?_⟩
    apply admits_iff.mpr
    exact ⟨hroute, _, key, haccepts.respell hother hsame rfl rfl, rfl⟩

theorem ApiSample.admits : Admits ApiSample.config ⟨false, false⟩
    (ApiSample.stamped "GET".toList "/wallets".toList) (ApiSample.world [ApiSample.key []])
    (ApiSample.key []).user :=
  admits_iff.mpr ⟨rfl, _, _, ApiSample.accepts [] "GET".toList "/wallets".toList, rfl⟩

/-- The sample stamp is spelled strictly. -/
theorem stamp_canonical_iff_sample : SpelledStrictly ApiSample.header := by
  obtain ⟨stamp, hparsed, hiff, _⟩ := stamp_canonical_iff ApiSample.config ⟨false, false⟩
    (ApiSample.stamped "GET".toList "/wallets".toList) ApiSample.header
    (ApiSample.world [ApiSample.key []]) (ApiSample.key []).user rfl ApiSample.admits
  apply hiff.mp
  have hsample : parseStamp ApiSample.header =
      .ok ⟨Base64url.encode ApiSample.signature, 7, ApiSample.keyId⟩ := by decide
  rw [hsample, Except.ok.injEq] at hparsed
  rw [← hparsed]
  decide

/-- The sample stamp with a zero in front of its number is accepted too. -/
theorem stamp_leading_zero :
    let header := Base64url.encode ApiSample.signature ++ ".07.".toList ++ ApiSample.keyId
    Admits ApiSample.config ⟨false, false⟩
        { ApiSample.stamped "GET".toList "/wallets".toList with xStamp := some header }
        (ApiSample.world [ApiSample.key []]) (ApiSample.key []).user ∧
      header ≠ canonicalStamp ApiSample.signature 7 ApiSample.keyId := by
  constructor
  · have hparsed : parseStamp (Base64url.encode ApiSample.signature ++ ".07.".toList ++
        ApiSample.keyId) = .ok ⟨Base64url.encode ApiSample.signature, 7, ApiSample.keyId⟩ := by
      decide
    have haccepts := ApiSample.accepts [] "GET".toList "/wallets".toList
    exact admits_iff.mpr ⟨rfl, _, _, haccepts.respell hparsed rfl rfl rfl, rfl⟩
  · decide

end BrokeTurnkey
