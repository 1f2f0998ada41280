import BrokeTurnkey.Api.Footprint

/-!
# The domain a typed-data signature is good for

The allowlists are checked against the domain object of the request.  What is signed is
a hash made of the domain and of the types the caller sends: it starts with the separator
of the domain, made of the members of the type `EIP712Domain` and their values in the
domain object.  Where the types of the caller have no entry of that name the members
follow from the domain, where they have one its members are taken.
-/

namespace BrokeTurnkey

open Interaction SigningService

/-! ### The hash -/

/-- A member of a type, with its value in an object. -/
structure Member where
  name : Text
  type : Text
  value : Option Json

/-- What a separator is made of: the members of the entry of the types, or those that
    follow from the domain where there is no entry. -/
def separatorMembers (readMembers derive : Json → List (Text × Text)) (domain types : Json) :
    List Member :=
  ((types.get? "EIP712Domain".toList).elim (derive domain) readMembers).map
    fun member => ⟨member.1, member.2, domain.get? member.1⟩

/-- What is assumed of `hashTypedData`. -/
structure TypedDataHash (cfg : ApiConfig) where
  /-- the members an entry of the types lists -/
  readMembers : Json → List (Text × Text)
  /-- the members that follow from a domain -/
  derive : Json → List (Text × Text)
  separator : Json → List Member → Text
  /-- the text of the type with these members, and of the structs it refers to -/
  encodeType : Json → List Member → Text
  /-- a value as data of its type -/
  encode : Json → Text → Option Json → Text
  /-- the separator and the hash of the message put together -/
  digest : Text → Json → Text → Json → Text
  derive_name : ∀ domain type, ("name".toList, type) ∈ derive domain ↔
    type = "string".toList ∧ ∃ s, domain.get? "name".toList = some (.str s)
  derive_chainId : ∀ domain type, ("chainId".toList, type) ∈ derive domain ↔
    type = "uint256".toList ∧ ∃ n, domain.get? "chainId".toList = some (.num n)
  derive_verifyingContract : ∀ domain type s,
    domain.get? "verifyingContract".toList = some (.str s) → s ≠ [] →
      (("verifyingContract".toList, type) ∈ derive domain ↔ type = "address".toList)
  hash_eq : ∀ {domain types primaryType message hash},
    cfg.hashTypedData domain types primaryType message = .ok hash →
      hash = digest (separator types (separatorMembers readMembers derive domain types)) types
        primaryType message
  /-- a separator is that of one type and of one list of data -/
  separator_injective : ∀ {types types' members members'},
    separator types members = separator types' members' →
      encodeType types members = encodeType types' members' ∧
        (members.map fun member => encode types member.type member.value) =
          members'.map fun member => encode types' member.type member.value
  digest_injective : ∀ {domainSeparator domainSeparator' types types' primaryType primaryType'
    message message'}, digest domainSeparator types primaryType message =
      digest domainSeparator' types' primaryType' message' → domainSeparator = domainSeparator'

namespace TypedDataHash

variable {cfg : ApiConfig} (viem : TypedDataHash cfg)

/-- What the separator is made of. -/
def members (domain types : Json) : List Member :=
  separatorMembers viem.readMembers viem.derive domain types

/-- The type of the separator and the data of its members. -/
def encoded (req : Eip712SignRequest) : Text × List Text :=
  (viem.encodeType req.types (viem.members req.domain req.types),
    (viem.members req.domain req.types).map fun member =>
      viem.encode req.types member.type member.value)

/-- No hash is made of the request. -/
def Refuses (_ : TypedDataHash cfg) (req : Eip712SignRequest) : Prop :=
  ∀ hash, cfg.hashTypedData req.domain req.types req.primaryType req.message ≠ .ok hash

/-- The hash of a request. -/
def hashOf (req : Eip712SignRequest) : Text :=
  viem.digest (viem.separator req.types (viem.members req.domain req.types)) req.types
    req.primaryType req.message

end TypedDataHash

/-! ### What was checked -/

/-- The value reads as the number. -/
def Json.IsChainId (chainId : Int) : Json → Prop
  | .num n => n = chainId
  | .str s => (Text.parseDecimal s).map Int.ofNat = some chainId
  | _ => False

/-- The name, the chain id and the contract of the domain, as the allowlists have them. -/
structure Allowlisted (cfg : ApiConfig) (domain : Json) (name : Text) (chainId : Int)
    (contract : Text) : Prop where
  name_listed : name ∈ getCsv cfg "EIP712_DOMAIN_ALLOWLIST"
  name_read : domain.get? "name".toList = some (.str name)
  chainId_listed : chainId ∈
    ((getCsv cfg "EIP712_ALLOWED_CHAIN_IDS").filterMap cfg.positiveSafeInteger).map Int.ofNat
  chainId_read : ∃ value, domain.get? "chainId".toList = some value ∧ value.IsChainId chainId
  contract_listed : contract ∈ (getCsv cfg "EIP712_ALLOWED_CONTRACTS").map Text.lower
  contract_read : ∃ s, domain.get? "verifyingContract".toList = some (.str s) ∧ s ≠ [] ∧
    Text.lower s = contract

theorem get?_of_stringOf {domain : Json} {key : String} (h : stringOf domain key ≠ []) :
    domain.get? key.toList = some (.str (stringOf domain key)) := by
  unfold stringOf at h ⊢
  cases hget : domain.get? key.toList with
  | none =>
    rw [hget] at h
    exact absurd rfl h
  | some value =>
    rw [hget] at h
    cases value with
    | str s => rfl
    | _ => exact absurd rfl h

theorem isChainId_of_chainIdOf {domain : Json} {chainId : Int}
    (h : chainIdOf domain = some chainId) :
    ∃ value, domain.get? "chainId".toList = some value ∧ value.IsChainId chainId := by
  unfold chainIdOf at h
  split at h
  · rename_i n hget
    exact ⟨_, hget, Option.some.inj h⟩
  · rename_i s hget
    exact ⟨_, hget, h⟩
  · cases h

section Checks

variable {cfg : ApiConfig} {domain : Json}

theorem assertDomain_eq_ok (h : assertDomain cfg domain = .ok ()) :
    stringOf domain "name" ∈ getCsv cfg "EIP712_DOMAIN_ALLOWLIST" ∧ stringOf domain "name" ≠ [] := by
  simp only [assertDomain] at h
  split at h
  · cases h
  · rename_i hlisted
    rw [not_or, not_not, List.contains_iff_mem] at hlisted
    exact ⟨hlisted.2, hlisted.1⟩

theorem assertChainId_eq_ok (h : assertChainId cfg domain = .ok ()) : ∃ chainId,
    chainIdOf domain = some chainId ∧ chainId ∈
      ((getCsv cfg "EIP712_ALLOWED_CHAIN_IDS").filterMap cfg.positiveSafeInteger).map Int.ofNat := by
  simp only [assertChainId] at h
  split at h
  · cases h
  · rename_i chainId hread
    split at h
    · rename_i hlisted
      exact ⟨chainId, hread, List.contains_iff_mem.mp hlisted⟩
    · cases h

theorem assertContract_eq_ok (h : assertContract cfg domain = .ok ()) :
    Text.lower (stringOf domain "verifyingContract") ∈
        (getCsv cfg "EIP712_ALLOWED_CONTRACTS").map Text.lower ∧
      stringOf domain "verifyingContract" ≠ [] := by
  simp only [assertContract] at h
  split at h
  · cases h
  · rename_i hlisted
    rw [not_or, not_or, not_not, not_not, List.contains_iff_mem] at hlisted
    refine ⟨hlisted.2.2, fun hnil => hlisted.1 ?_⟩
    rw [hnil]
    rfl

/-- What passes the checks is allowlisted. -/
theorem exists_allowlisted {req : Eip712SignRequest} (h : assertEip712Allowed cfg req = .ok ()) :
    ∃ name chainId contract, Allowlisted cfg req.domain name chainId contract := by
  obtain ⟨_, hdomain, h⟩ := Signer.bind_eq_ok.mp h
  obtain ⟨_, hchain, h⟩ := Signer.bind_eq_ok.mp h
  obtain ⟨_, hcontract, _⟩ := Signer.bind_eq_ok.mp h
  obtain ⟨hname, hnonempty⟩ := assertDomain_eq_ok hdomain
  obtain ⟨chainId, hread, hchainId⟩ := assertChainId_eq_ok hchain
  obtain ⟨hlisted, hne⟩ := assertContract_eq_ok hcontract
  exact ⟨_, chainId, _,
    { name_listed := hname
      name_read := get?_of_stringOf hnonempty
      chainId_listed := hchainId
      chainId_read := isChainId_of_chainIdOf hread
      contract_listed := hlisted
      contract_read := ⟨_, get?_of_stringOf hne, hne, rfl⟩ }⟩

end Checks

/-! ### What is committed to -/

/-- The separator is made of a value of that name which is not one of the caller's structs. -/
def Includes (types : Json) (members : List Member) (name : Text) (P : Json → Prop) : Prop :=
  ∃ member ∈ members, member.name = name ∧ types.get? member.type = none ∧
    ∃ value, member.value = some value ∧ P value

/-- The separator includes what was checked. -/
structure Commits (types : Json) (members : List Member) (name : Text) (chainId : Int)
    (contract : Text) : Prop where
  name : Includes types members "name".toList fun value => value = .str name
  chainId : Includes types members "chainId".toList (Json.IsChainId chainId)
  contract : Includes types members "verifyingContract".toList
    fun value => ∃ s, value = .str s ∧ Text.lower s = contract

/-- What the allowlists are about. -/
def checkedNames : List Text := ["name", "chainId", "verifyingContract"].map String.toList

/-- The entry of the types, if there is one, has each of the members with a type that is
    not itself one of the types; and if there is none, the chain id is a number and the
    types leave the types of the members alone. -/
def TypedDataHash.Covers {cfg : ApiConfig} (viem : TypedDataHash cfg) (req : Eip712SignRequest) :
    Prop :=
  match req.types.get? "EIP712Domain".toList with
  | some entry => ∀ name ∈ checkedNames, ∃ type, (name, type) ∈ viem.readMembers entry ∧
      req.types.get? type = none
  | none => (∃ n, req.domain.get? "chainId".toList = some (.num n)) ∧
      ∀ type ∈ ["string", "uint256", "address"].map String.toList, req.types.get? type = none

section

variable {cfg : ApiConfig} (viem : TypedDataHash cfg) {req : Eip712SignRequest}

/-- The members of the domain type. -/
def TypedDataHash.domainType (domain types : Json) : List (Text × Text) :=
  (types.get? "EIP712Domain".toList).elim (viem.derive domain) viem.readMembers

/-- A value is included if its name has a member of an elementary type. -/
theorem includes_iff {domain : Json} (types : Json) {name : Text} {P : Json → Prop} {value : Json}
    (hvalue : domain.get? name = some value) (hP : P value) :
    Includes types (viem.members domain types) name P ↔
      ∃ type, (name, type) ∈ viem.domainType domain types ∧ types.get? type = none := by
  constructor
  · rintro ⟨member, hmember, rfl, htype, _⟩
    obtain ⟨pair, hpair, rfl⟩ := List.mem_map.mp hmember
    exact ⟨pair.2, hpair, htype⟩
  · rintro ⟨type, hmem, htype⟩
    exact ⟨_, List.mem_map_of_mem hmem, rfl, htype, value, hvalue, hP⟩

/-- Where there is no entry, the members are those of the three kinds of values. -/
theorem mem_domainType_derived {name : Text} {chainId : Int} {contract : Text}
    (h : Allowlisted cfg req.domain name chainId contract)
    (hentry : req.types.get? "EIP712Domain".toList = none) (type : Text) :
    (("name".toList, type) ∈ viem.domainType req.domain req.types ↔ type = "string".toList) ∧
      (("chainId".toList, type) ∈ viem.domainType req.domain req.types ↔
        type = "uint256".toList ∧ ∃ n, req.domain.get? "chainId".toList = some (.num n)) ∧
      (("verifyingContract".toList, type) ∈ viem.domainType req.domain req.types ↔
        type = "address".toList) := by
  obtain ⟨s, hs, hne, _⟩ := h.contract_read
  simp only [TypedDataHash.domainType, hentry, Option.elim_none]
  refine ⟨?_, viem.derive_chainId _ _, viem.derive_verifyingContract _ _ s hs hne⟩
  rw [viem.derive_name]
  exact and_iff_left ⟨name, h.name_read⟩

/-- What is allowlisted is committed to exactly if the types cover it. -/
theorem Allowlisted.commits_iff {name : Text} {chainId : Int} {contract : Text}
    (h : Allowlisted cfg req.domain name chainId contract) :
    Commits req.types (viem.members req.domain req.types) name chainId contract ↔
      viem.Covers req := by
  obtain ⟨value, hvalue, hchainId⟩ := h.chainId_read
  obtain ⟨s, hs, hne, hlower⟩ := h.contract_read
  have hnames : Commits req.types (viem.members req.domain req.types) name chainId contract ↔
      ∀ name ∈ checkedNames, ∃ type, (name, type) ∈ viem.domainType req.domain req.types ∧
        req.types.get? type = none := by
    have hname := includes_iff viem req.types (P := fun value => value = .str name)
      h.name_read rfl
    have hchain := includes_iff viem req.types hvalue hchainId
    have hcontract := includes_iff viem req.types
      (P := fun value => ∃ s, value = .str s ∧ Text.lower s = contract) hs ⟨s, rfl, hlower⟩
    simp only [checkedNames, List.map_cons, List.map_nil, List.forall_mem_cons]
    rw [← hname, ← hchain, ← hcontract]
    constructor
    · rintro ⟨hincludes, hincludesChain, hincludesContract⟩
      exact ⟨hincludes, hincludesChain, hincludesContract, nofun⟩
    · rintro ⟨hincludes, hincludesChain, hincludesContract, _⟩
      exact ⟨hincludes, hincludesChain, hincludesContract⟩
  rw [hnames, TypedDataHash.Covers]
  split
  · rename_i entry hentry
    simp only [TypedDataHash.domainType, hentry, Option.elim_some]
  · rename_i hentry
    have hname := fun type => (mem_domainType_derived viem h hentry type).1
    have hchain := fun type => (mem_domainType_derived viem h hentry type).2.1
    have hcontract := fun type => (mem_domainType_derived viem h hentry type).2.2
    simp only [checkedNames, List.map_cons, List.map_nil, List.forall_mem_cons, hname, hchain,
      hcontract, exists_eq_left, and_assoc]
    constructor
    · rintro ⟨hstring, hnumber, hinteger, haddress, _⟩
      exact ⟨hnumber, hstring, hinteger, haddress, nofun⟩
    · rintro ⟨hnumber, hstring, hinteger, haddress, _⟩
      exact ⟨hstring, hnumber, hinteger, haddress, nofun⟩

/-- The one hash that is signed. -/
theorem signEip712_signs (orgId walletId : Text) (req : Eip712SignRequest) :
    (signEip712 cfg orgId walletId req).All fun command => ∀ wallet key hash,
      command = .signHash wallet key hash → hash = viem.hashOf req := by
  refine Prog.All.bind (all_ofExcept _) fun _ => ?_
  refine Prog.All.bind ?_ fun loaded => ?_
  · refine Prog.All.bind (all_api (fun _ => nofun) _) fun seedRow => ?_
    refine Prog.All.bind (all_api (fun _ => nofun) _) fun wallet => ?_
    split
    · trivial
    · trivial
    · split
      · trivial
      · trivial
  · cases hhash : cfg.hashTypedData req.domain req.types req.primaryType req.message with
    | error error => trivial
    | ok hash =>
      change (signWith orgId walletId hash _ loaded.1 loaded.2).All _
      refine Prog.All.bind (Prog.All.perform ?_) fun signature => ?_
      · rintro wallet key _ ⟨⟩
        exact viem.hash_eq hhash
      · exact Prog.All.bind (Prog.All.perform nofun) fun _ => trivial

/-- With an entry, the hash is that of every domain that has the same values for the
    members of the entry. -/
theorem hashOf_eq_of_agree {entry domain : Json}
    (hentry : req.types.get? "EIP712Domain".toList = some entry)
    (hagree : ∀ member ∈ viem.readMembers entry,
      domain.get? member.1 = req.domain.get? member.1) :
    viem.hashOf { req with domain } = viem.hashOf req := by
  have hmembers : viem.members domain req.types = viem.members req.domain req.types := by
    simp only [TypedDataHash.members, separatorMembers, hentry, Option.elim_some]
    apply List.map_congr_left
    intro member hmember
    rw [hagree member hmember]
  simp only [TypedDataHash.hashOf, hmembers]

/-- The hash is of no other type and no other data. -/
theorem encoded_eq_of_hashOf_eq {other : Eip712SignRequest}
    (h : viem.hashOf other = viem.hashOf req) : viem.encoded other = viem.encoded req := by
  obtain ⟨htype, hdata⟩ := viem.separator_injective (viem.digest_injective h)
  exact Prod.ext htype hdata

end

/-- **When a typed-data signature commits to the domain that was checked.**  Every hash
    that is passed on for a request starts with its separator, which includes the name,
    the chain id and the contract the allowlists have, exactly if the types of the
    request cover them, or there is no hash.  And the hash is that of no request whose
    separator has another type or other data. -/
theorem typed_data_commits_iff {cfg : ApiConfig} (viem : TypedDataHash cfg)
    (orgId walletId : Text) (req : Eip712SignRequest)
    (hallowed : assertEip712Allowed cfg req = .ok ()) :
    ∃ name chainId contract, Allowlisted cfg req.domain name chainId contract ∧
      ((signEip712 cfg orgId walletId req).All fun command => ∀ wallet key hash,
        command = .signHash wallet key hash → hash = viem.hashOf req) ∧
      (Commits req.types (viem.members req.domain req.types) name chainId contract ↔
        viem.Covers req) ∧
      ((¬viem.Refuses req →
          Commits req.types (viem.members req.domain req.types) name chainId contract) ↔
        viem.Refuses req ∨ viem.Covers req) ∧
      ∀ other, viem.hashOf other = viem.hashOf req → viem.encoded other = viem.encoded req := by
  obtain ⟨name, chainId, contract, h⟩ := exists_allowlisted hallowed
  refine ⟨name, chainId, contract, h, signEip712_signs viem orgId walletId req, h.commits_iff viem,
    ?_, fun other => encoded_eq_of_hashOf_eq viem⟩
  rw [h.commits_iff viem, or_iff_not_imp_left]

/-! ### Two requests -/

namespace TypedDataSample

def contract : Text := "0x1111111111111111111111111111111111111111".toList

def domain : Json :=
  .obj [("name".toList, .str "Example".toList), ("chainId".toList, .num 1),
    ("verifyingContract".toList, .str contract)]

/-- The same message, with these types. -/
def request (types : List (Text × Json)) : Eip712SignRequest where
  domain := domain
  types := .obj (types ++ [("Mail".toList,
    .arr [.obj [("name".toList, .str "contents".toList), ("type".toList, .str "string".toList)]])])
  primaryType := "Mail".toList
  message := .obj [("contents".toList, .str "Hello, Bob!".toList)]

/-- Types that leave the domain out. -/
def emptyDomain : List (Text × Json) := [("EIP712Domain".toList, .arr [])]

def readMembers : Json → List (Text × Text)
  | .arr items => items.filterMap fun item => do
    let name ← (item.get? "name".toList).bind Json.str?
    let type ← (item.get? "type".toList).bind Json.str?
    return (name, type)
  | _ => []

def isTruthy : Json → Bool
  | .null => false
  | .bool b => b
  | .num n => n ≠ 0
  | .str s => s ≠ []
  | .arr _ | .obj _ => true

def isString : Json → Bool
  | .str _ => true
  | _ => false

def isNumber : Json → Bool
  | .num _ => true
  | _ => false

/-- The members of a domain type in their order, and when a domain has them. -/
def domainMembers : List (String × String × (Json → Bool)) :=
  [("name", "string", isString), ("version", "string", isTruthy), ("chainId", "uint256", isNumber),
    ("verifyingContract", "address", isTruthy), ("salt", "bytes32", isTruthy)]

def derive (domain : Json) : List (Text × Text) :=
  domainMembers.filterMap fun (name, type, present) =>
    if (domain.get? name.toList).any present then some (name.toList, type.toList) else none

/-- The value as it is spelled, an address in lower case. -/
def encode (_ : Json) (type : Text) : Option Json → Text
  | some (.num n) => Text.decimalInt n
  | some (.str s) => if type = "address".toList then Text.lower s else s
  | _ => []

def domainText (members : List Text) : Text :=
  "EIP712Domain(".toList ++ [','].intercalate members ++ [')']

/-- The type of the domain with these members. -/
def encodeType (_ : Json) (members : List Member) : Text :=
  domainText (members.map fun member => member.type ++ ' ' :: member.name)

/-- A text behind its length. -/
def frame (s : Text) : Text := Text.decimal s.length ++ ':' :: s

/-- The texts of the members, each behind its length. -/
def spell : List (Text × Text × Text) → Text
  | [] => []
  | (name, type, value) :: rest => frame name ++ (frame type ++ (frame value ++ spell rest))

theorem frame_append_inj {s t rest rest' : Text} (h : frame s ++ rest = frame t ++ rest') :
    s = t ∧ rest = rest' := by
  simp only [frame, List.append_assoc, List.cons_append] at h
  have hcolon : ∀ n, ':' ∉ Text.decimal n := Text.not_mem_decimal (by decide)
  obtain ⟨hlength, htail⟩ := Text.append_cons_inj (hcolon _) (hcolon _) h
  exact List.append_inj htail (Text.decimal_injective hlength)

theorem spell_injective : Function.Injective spell := by
  have hne : ∀ s rest, frame s ++ rest ≠ [] := by simp [frame]
  intro members
  induction members with
  | nil =>
    rintro (_ | ⟨member, rest⟩) h
    · rfl
    · exact absurd h.symm (hne _ _)
  | cons member rest ih =>
    rintro (_ | ⟨member', rest'⟩) h
    · exact absurd h (hne _ _)
    · obtain ⟨hname, h⟩ := frame_append_inj h
      obtain ⟨htype, h⟩ := frame_append_inj h
      obtain ⟨hvalue, h⟩ := frame_append_inj h
      rw [ih h, Prod.ext hname (Prod.ext htype hvalue)]

/-- The members of the sample domain. -/
def sampleMembers : List (Text × Text × Text) :=
  [("name".toList, "string".toList, "Example".toList),
    ("chainId".toList, "uint256".toList, "1".toList),
    ("verifyingContract".toList, "address".toList, contract)]

def sampleSeparator : Text :=
  "61cf41555b44e20cc011b2d1887940478b0363a518ef68eaa1f5654311cb021f".toList

def emptySeparator : Text :=
  "6192106f129ce05c9075d319c1fa6ea9b3ae37cbd0c1ef92e2be7137bb07baa1".toList

/-- Two known values, and a text that tells the others apart. -/
def known {α : Type} [DecidableEq α] (first second : α) (firstText secondText : Text)
    (spelled : α → Text) (x : α) : Text :=
  if x = first then firstText else if x = second then secondText else '!' :: spelled x

theorem known_injective {α : Type} [DecidableEq α] {first second : α} {firstText secondText : Text}
    {spelled : α → Text} (hspelled : Function.Injective spelled) (hne : firstText ≠ secondText)
    (hfirst : firstText.head? ≠ some '!') (hsecond : secondText.head? ≠ some '!') :
    Function.Injective (known first second firstText secondText spelled) := by
  have hmark : ∀ {s t : Text}, s.head? ≠ some '!' → s ≠ '!' :: t := by
    rintro s t hs rfl
    exact hs rfl
  intro x y h
  simp only [known] at h
  split at h
  · rename_i hx
    split at h
    · rename_i hy
      rw [hx, hy]
    · split at h
      · exact absurd h hne
      · exact absurd h (hmark hfirst)
  · split at h
    · rename_i hx
      split at h
      · exact absurd h.symm hne
      · split at h
        · rename_i hy
          rw [hx, hy]
        · exact absurd h (hmark hsecond)
    · split at h
      · exact absurd h.symm (hmark hfirst)
      · split at h
        · exact absurd h.symm (hmark hsecond)
        · exact hspelled (List.cons.inj h).2

/-- The name, the type and the data of each member. -/
def entries (types : Json) (members : List Member) : List (Text × Text × Text) :=
  members.map fun member => (member.name, member.type, encode types member.type member.value)

/-- The separators of the sample domain and of no members. -/
def separator (types : Json) (members : List Member) : Text :=
  known sampleMembers [] sampleSeparator emptySeparator spell (entries types members)

theorem map_type_entries (types : Json) (members : List Member) :
    ((entries types members).map fun entry => entry.2.1 ++ ' ' :: entry.1) =
      members.map fun member => member.type ++ ' ' :: member.name := List.map_map

theorem map_data_entries (types : Json) (members : List Member) :
    ((entries types members).map fun entry => entry.2.2) =
      members.map fun member => encode types member.type member.value := List.map_map

theorem separators_ne : sampleSeparator ≠ emptySeparator := by decide

theorem separator_injective {types types' : Json} {members members' : List Member}
    (h : separator types members = separator types' members') :
    encodeType types members = encodeType types' members' ∧
      (members.map fun member => encode types member.type member.value) =
        members'.map fun member => encode types' member.type member.value := by
  have hentries : entries types members = entries types' members' :=
    known_injective spell_injective separators_ne (by decide) (by decide) h
  have htexts : (members.map fun member => member.type ++ ' ' :: member.name) =
      members'.map fun member => member.type ++ ' ' :: member.name := by
    rw [← map_type_entries types, hentries, map_type_entries types']
  have hdata : (members.map fun member => encode types member.type member.value) =
      members'.map fun member => encode types' member.type member.value := by
    rw [← map_data_entries, hentries, map_data_entries]
  exact ⟨congrArg domainText htexts, hdata⟩

def sampleHash : Text := "0x6cb35194e29213f86ec4d23c1bd91b0e4d497b4396260898d7f862d73359836d".toList

def emptyHash : Text := "0xcaee369666fa91227456a0e576712aa5586c98b86f5cbef30d25d87ddead13e1".toList

/-- The hashes of the sample message under the two separators. -/
def digest (separator : Text) (_ : Json) (_ : Text) (_ : Json) : Text :=
  known sampleSeparator emptySeparator sampleHash emptyHash id separator

def config : ApiConfig :=
  { ApiSample.config with
    hashTypedData := fun domain types primaryType message =>
      .ok (digest (separator types (separatorMembers readMembers derive domain types)) types
        primaryType message)
    env := fun key =>
      ([("EIP712_DOMAIN_ALLOWLIST", "Example"), ("EIP712_ALLOWED_CHAIN_IDS", "1"),
        ("EIP712_ALLOWED_CONTRACTS", "0x1111111111111111111111111111111111111111"),
        ("EIP712_ALLOWED_PRIMARY_TYPES", "Mail")].find? fun entry => entry.1.toList = key).map
          fun entry => entry.2.toList }

theorem mem_derive {domain : Json} {name type : Text} : (name, type) ∈ derive domain ↔
    ∃ member ∈ domainMembers, member.1.toList = name ∧ member.2.1.toList = type ∧
      (domain.get? name).any member.2.2 = true := by
  simp only [derive, List.mem_filterMap]
  constructor
  · rintro ⟨⟨name', type', present⟩, hmember, hsome⟩
    split at hsome
    · rename_i hpresent
      cases hsome
      exact ⟨_, hmember, rfl, rfl, hpresent⟩
    · cases hsome
  · rintro ⟨⟨name', type', present⟩, hmember, rfl, rfl, hpresent⟩
    exact ⟨_, hmember, if_pos hpresent⟩

/-- Where a name has one kind of member. -/
theorem mem_derive_of_one {domain : Json} {name type : String} {present : Json → Bool}
    (hmember : (name, type, present) ∈ domainMembers)
    (hone : ∀ member ∈ domainMembers, member.1 = name → member = (name, type, present))
    (other : Text) : (name.toList, other) ∈ derive domain ↔
      other = type.toList ∧ (domain.get? name.toList).any present = true := by
  rw [mem_derive]
  constructor
  · rintro ⟨member, hmem, hname, htype, hpresent⟩
    rw [hone member hmem (String.toList_inj.mp hname)] at htype hpresent
    exact ⟨htype.symm, hpresent⟩
  · rintro ⟨rfl, hpresent⟩
    exact ⟨_, hmember, rfl, rfl, hpresent⟩

theorem any_isString {value : Option Json} :
    value.any isString = true ↔ ∃ s, value = some (.str s) := by
  rcases value with _ | value
  · simp
  · cases value <;> simp [isString]

theorem any_isNumber {value : Option Json} :
    value.any isNumber = true ↔ ∃ n, value = some (.num n) := by
  rcases value with _ | value
  · simp
  · cases value <;> simp [isNumber]

/-- The assumptions hold of the functions of the sample. -/
def viem : TypedDataHash config where
  readMembers := readMembers
  derive := derive
  separator := separator
  encodeType := encodeType
  encode := encode
  digest := digest
  derive_name := by
    intro domain type
    have hmem := @mem_derive_of_one domain "name" "string" isString (by simp [domainMembers])
      (by simp [domainMembers]) type
    rw [hmem, any_isString]
  derive_chainId := by
    intro domain type
    have hmem := @mem_derive_of_one domain "chainId" "uint256" isNumber (by simp [domainMembers])
      (by simp [domainMembers]) type
    rw [hmem, any_isNumber]
  derive_verifyingContract := by
    intro domain type s hs hne
    have hmem := @mem_derive_of_one domain "verifyingContract" "address" isTruthy
      (by simp [domainMembers]) (by simp [domainMembers]) type
    have htruthy : isTruthy (.str s) = true := decide_eq_true hne
    rw [hmem, hs, Option.any_some]
    exact and_iff_left htruthy
  hash_eq := by
    intro domain types primaryType message hash h
    exact (Except.ok.inj h).symm
  separator_injective := by
    intro types types' members members' h
    exact separator_injective h
  digest_injective := by
    intro domainSeparator domainSeparator' types types' primaryType primaryType' message message' h
    exact known_injective Function.injective_id (by decide) (by decide) (by decide) h

theorem allowed (types : List (Text × Json)) :
    assertEip712Allowed config (request types) = .ok () := by
  have hchecks : assertEip712Allowed config ⟨domain, .null, "Mail".toList, .null⟩ = .ok () := by
    decide
  exact hchecks

def world : ApiWorld :=
  { ApiSample.world [] with
    tables := { (ApiSample.world []).tables with base := Sample.world.tables } }

/-- The sample run signs the hash. -/
theorem signs {types : List (Text × Json)} {hash : Text}
    (h : (((api config).complete .any
      [Sample.run, Sample.run, .signed "signature".toList [], Sample.run]
      (signEip712 config Sample.org.toText Sample.wallet.toText (request types)) world []).any
        fun final => final.1.isOk && final.2.2.any fun entry =>
          match entry.command with
          | .signHash _ _ hash' => hash' = hash
          | _ => false) = true) :
    ∃ result w' history, Completes (api config) .any
        (signEip712 config Sample.org.toText Sample.wallet.toText (request types)) world []
        (.ok result) w' history ∧
      ∃ entry ∈ history, ∃ wallet key, entry.command = .signHash wallet key hash := by
  obtain ⟨outcome, w', history, hrun, hfinal⟩ := Completes.exists_of_complete _ _ _ _ _ _ h
  rw [Bool.and_eq_true, List.any_eq_true] at hfinal
  obtain ⟨hok, entry, hentry, hsigns⟩ := hfinal
  cases outcome with
  | error error => cases hok
  | ok result =>
    refine ⟨result, w', history, hrun, entry, hentry, ?_⟩
    split at hsigns
    · rename_i wallet key hash' hcommand
      rw [← of_decide_eq_true hsigns]
      exact ⟨wallet, key, hcommand⟩
    · cases hsigns

end TypedDataSample

open TypedDataSample in
/-- The sample request without an entry. -/
theorem typed_data_commits_iff_mail : ∃ name chainId contract,
    Allowlisted config domain name chainId contract ∧
      Commits (request []).types (viem.members domain (request []).types) name chainId
        contract := by
  obtain ⟨name, chainId, contract, hlisted, _, hiff, _⟩ := typed_data_commits_iff viem
    Sample.org.toText Sample.wallet.toText (request []) (allowed [])
  refine ⟨name, chainId, contract, hlisted, hiff.mpr ?_⟩
  have hentry : (request []).types.get? "EIP712Domain".toList = none := rfl
  simp only [TypedDataHash.Covers, hentry, List.map_cons, List.map_nil, List.forall_mem_cons]
  exact ⟨⟨1, rfl⟩, rfl, rfl, rfl, nofun⟩

open TypedDataSample in
/-- With an entry that has no members the domain is checked and left out: the hash that
    is signed is that of any other domain. -/
theorem typed_data_uncommitted :
    assertEip712Allowed config (request emptyDomain) = .ok () ∧
      (∃ result w' history, Completes (api config) .any
          (signEip712 config Sample.org.toText Sample.wallet.toText (request emptyDomain)) world []
          (.ok result) w' history ∧
        ∃ entry ∈ history, ∃ wallet key, entry.command = .signHash wallet key emptyHash) ∧
      (∀ name chainId contract, ¬Commits (request emptyDomain).types
        (viem.members domain (request emptyDomain).types) name chainId contract) ∧
      ∀ other, viem.hashOf { request emptyDomain with domain := other } = emptyHash := by
  refine ⟨allowed emptyDomain, signs (by decide), ?_, ?_⟩
  · intro name chainId contract hcommits
    obtain ⟨member, hmember, _⟩ := hcommits.name
    cases hmember
  · intro other
    have hhash : viem.hashOf (request emptyDomain) = emptyHash := by decide
    have hentry : (request emptyDomain).types.get? "EIP712Domain".toList = some (.arr []) := rfl
    rw [hashOf_eq_of_agree viem hentry nofun, hhash]

end BrokeTurnkey
