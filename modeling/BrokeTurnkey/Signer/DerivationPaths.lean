import BrokeTurnkey.Signer.ValidatedSigning
import BrokeTurnkey.Signer.WalletHandlers

/-!
# The keys that derivation paths name

A path is written down and read by other wallets.  BIP32 gives it a meaning of its
own: a component is a number below 2^31, and the mark behind it adds 2^31 to the
number of the child.  The signer reads the last component of its paths as a child
number of 32 bits.  Below 2^31 that is the same key; from there on the child that is
derived is a hardened one, which is written with a mark.
-/

namespace BrokeTurnkey

open Text

/-! ### The meaning of a path -/

namespace Bip32

/-- The apostrophe. -/
def hardenedMark : Char := Char.ofNat 39

/-- The child a component of a path names. -/
def childNumber (component : Text) : Option UInt32 :=
  if component.getLast? = some hardenedMark then
    ((parseDecimal component.dropLast).filter (· < 2 ^ 31)).map fun n => UInt32.ofNat (2 ^ 31 + n)
  else ((parseDecimal component).filter (· < 2 ^ 31)).map UInt32.ofNat

/-- The children from the master key to the key of the path. -/
def childNumbers (path : Text) : Option (List UInt32) :=
  match path.splitOn '/' with
  | ['m'] :: components => components.mapM childNumber
  | _ => none

/-- The key a path names, over the derivation of one child. -/
def keyAt {K : Type} (child : K → UInt32 → Option K) (master : K) (path : Text) : Option K := do
  let numbers ← childNumbers path
  numbers.foldlM child master

theorem childNumber_of_parseDecimal {component : Text} {n : Nat}
    (h : parseDecimal component = some n) :
    childNumber component = if n < 2 ^ 31 then some (UInt32.ofNat n) else none := by
  have hmark : component.getLast? ≠ some hardenedMark := by
    intro hlast
    have hdigit := (parseDecimal_eq_some h).2 _ (List.mem_of_getLast? hlast)
    exact absurd hdigit (by decide)
  rw [childNumber, if_neg hmark, h]
  by_cases hlt : n < 2 ^ 31
  · rw [Option.filter_some, if_pos (decide_eq_true hlt), if_pos hlt]
    rfl
  · rw [Option.filter_some, if_neg (by simpa using hlt), if_neg hlt]
    rfl

theorem childNumber_hardened {digits : Text} {n : Nat} (h : parseDecimal digits = some n) :
    childNumber (digits ++ [hardenedMark]) =
      if n < 2 ^ 31 then some (UInt32.ofNat (2 ^ 31 + n)) else none := by
  rw [childNumber, if_pos List.getLast?_concat, List.dropLast_concat, h]
  by_cases hlt : n < 2 ^ 31
  · rw [Option.filter_some, if_pos (decide_eq_true hlt), if_pos hlt]
    rfl
  · rw [Option.filter_some, if_neg (by simpa using hlt), if_neg hlt]
    rfl

end Bip32

namespace Signer

open Interaction

/-- The path names the key under BIP32. -/
def NamesKey (lib : Libraries) (seed : Bytes) (path : Text) (key : Bytes) : Prop :=
  ∃ master extended, lib.newMasterKey seed = some master ∧
    Bip32.keyAt lib.newChildKey master path = some extended ∧ key = lib.keyBytes extended

/-- The last component of the path is a number below 2^31. -/
def LastBelow (path : Text) : Prop :=
  ∃ n < 2 ^ 31, (path.splitOn '/').getLast?.bind parseDecimal = some n

/-! ### The children that are derived -/

/-- What `parseDerivIndex` accepts. -/
theorem parseDerivIndex_eq_ok {path : Text} {index : UInt32} (h : parseDerivIndex path = .ok index) :
    ∃ indexStr n, path.splitOn '/' =
        ["m".toList, "44'".toList, "60'".toList, "0'".toList, "0".toList, indexStr] ∧
      parseDecimal indexStr = some n ∧ n < 2 ^ 32 ∧ index = UInt32.ofNat n := by
  simp only [parseDerivIndex] at h
  split at h
  · rename_i master purpose coin account change indexStr hsplit
    split at h
    · cases h
    · rename_i hfixed
      split at h
      · cases h
      · rename_i n hn
        cases h
        simp only [not_or, Decidable.not_not] at hfixed
        obtain ⟨rfl, rfl, rfl, rfl, rfl⟩ := hfixed
        rw [parseUint, Option.filter_eq_some_iff] at hn
        exact ⟨indexStr, n, hsplit, hn.1, of_decide_eq_true hn.2, rfl⟩
  · cases h

theorem lastBelow_iff {path : Text} {index : UInt32} (h : parseDerivIndex path = .ok index) :
    LastBelow path ↔ index.toNat < 2 ^ 31 := by
  obtain ⟨indexStr, n, hsplit, hn, hlt, rfl⟩ := parseDerivIndex_eq_ok h
  have hlast : (path.splitOn '/').getLast?.bind parseDecimal = some n := by
    rw [hsplit]
    exact hn
  rw [LastBelow, hlast, UInt32.toNat_ofNat_of_lt' hlt]
  simp

/-- The children of a path of the signer, whatever its last component is. -/
theorem childNumbers_of_splitOn {path last : Text} (h : path.splitOn '/' =
    ["m".toList, "44'".toList, "60'".toList, "0'".toList, "0".toList, last]) :
    Bip32.childNumbers path = (Bip32.childNumber last).map derivationLevels := by
  have hpurpose : Bip32.childNumber "44'".toList = some (firstHardenedChild + 44) := by decide
  have hcoin : Bip32.childNumber "60'".toList = some (firstHardenedChild + 60) := by decide
  have haccount : Bip32.childNumber "0'".toList = some (firstHardenedChild + 0) := by decide
  have hchange : Bip32.childNumber "0".toList = some 0 := by decide
  rw [Bip32.childNumbers, h]
  change List.mapM Bip32.childNumber _ = _
  simp only [List.mapM_cons, List.mapM_nil, hpurpose, hcoin, haccount, hchange]
  cases Bip32.childNumber last with
  | none => rfl
  | some number => rfl

/-- The literal path has the children that are derived, or none. -/
theorem childNumbers_of_parse {path : Text} {index : UInt32} (h : parseDerivIndex path = .ok index) :
    Bip32.childNumbers path =
      if index.toNat < 2 ^ 31 then some (derivationLevels index) else none := by
  obtain ⟨indexStr, n, hsplit, hn, hlt, rfl⟩ := parseDerivIndex_eq_ok h
  rw [childNumbers_of_splitOn hsplit, Bip32.childNumber_of_parseDecimal hn,
    UInt32.toNat_ofNat_of_lt' hlt]
  by_cases hbelow : n < 2 ^ 31
  · rw [if_pos hbelow, if_pos hbelow]
    rfl
  · rw [if_neg hbelow, if_neg hbelow]
    rfl

theorem deriveAddress_eq_ok {lib : Libraries} {seed key : Bytes} {index : UInt32} {address : Text}
    (h : deriveAddress lib seed index = .ok (address, key)) :
    ∃ master extended, lib.newMasterKey seed = some master ∧
      (derivationLevels index).foldlM lib.newChildKey master = some extended ∧
      key = lib.keyBytes extended := by
  simp only [deriveAddress, bind_eq_ok, orError_eq_ok, pure_eq_ok, Prod.mk.injEq] at h
  obtain ⟨master, hmaster, extended, hlevels, _, _, _, hkey⟩ := h
  refine ⟨master, extended, hmaster, ?_, hkey.symm⟩
  have hfold : ∀ (levels : List UInt32) (start : lib.ExtendedKey),
      levels.foldlM (fun key level => orError ("derive child key at level ".toList ++
        decimal level.toNat) (lib.newChildKey key level)) start = .ok extended →
      levels.foldlM lib.newChildKey start = some extended := by
    intro levels
    induction levels with
    | nil =>
      intro start h
      cases h
      rfl
    | cons level rest ih =>
      intro start h
      simp only [List.foldlM_cons, bind_eq_ok, orError_eq_ok] at h
      obtain ⟨next, hnext, hrest⟩ := h
      simp only [List.foldlM_cons, hnext]
      exact ih next hrest
  exact hfold _ _ hlevels

/-- The derived key is the one its path names, if the path names one. -/
theorem namesKey_iff {lib : Libraries} {seed key : Bytes} {index : UInt32} {address path : Text}
    (hparse : parseDerivIndex path = .ok index)
    (hderive : deriveAddress lib seed index = .ok (address, key)) :
    NamesKey lib seed path key ↔ index.toNat < 2 ^ 31 := by
  obtain ⟨master, extended, hmaster, hlevels, hkey⟩ := deriveAddress_eq_ok hderive
  have hchildren := childNumbers_of_parse hparse
  by_cases hbelow : index.toNat < 2 ^ 31
  · rw [if_pos hbelow] at hchildren
    apply iff_of_true _ hbelow
    refine ⟨master, extended, hmaster, ?_, hkey⟩
    rw [Bip32.keyAt, hchildren]
    exact hlevels
  · rw [if_neg hbelow] at hchildren
    apply iff_of_false _ hbelow
    rintro ⟨_, _, _, hnamed, _⟩
    rw [Bip32.keyAt, hchildren] at hnamed
    cases hnamed

/-- From 2^31 on the key is that of a path with a mark. -/
theorem namesKey_hardened {lib : Libraries} {seed key : Bytes} {index : UInt32} {address : Text}
    (hderive : deriveAddress lib seed index = .ok (address, key)) (h : 2 ^ 31 ≤ index.toNat) :
    NamesKey lib seed
      (derivationPath (index.toNat - 2 ^ 31) ++ [Bip32.hardenedMark]) key := by
  obtain ⟨master, extended, hmaster, hlevels, hkey⟩ := deriveAddress_eq_ok hderive
  have hlt := index.toNat_lt
  have hslash : '/' ∉ decimal (index.toNat - 2 ^ 31) ++ [Bip32.hardenedMark] := by
    rw [List.mem_append, not_or]
    exact ⟨not_mem_decimal (by decide) _, by decide⟩
  have hsum : 2 ^ 31 + (index.toNat - 2 ^ 31) = index.toNat := by omega
  have hnumber : UInt32.ofNat (2 ^ 31 + (index.toNat - 2 ^ 31)) = index := by
    rw [hsum, UInt32.ofNat_toNat]
  have hbelow : index.toNat - 2 ^ 31 < 2 ^ 31 := by omega
  have hchild := Bip32.childNumber_hardened (parseDecimal_decimal (index.toNat - 2 ^ 31))
  rw [if_pos hbelow, hnumber] at hchild
  have hchildren := childNumbers_of_splitOn (splitOn_path hslash)
  rw [hchild] at hchildren
  have hpath : derivationPath (index.toNat - 2 ^ 31) ++ [Bip32.hardenedMark] =
      "m/44'/60'/0'/0/".toList ++ (decimal (index.toNat - 2 ^ 31) ++ [Bip32.hardenedMark]) :=
    List.append_assoc _ _ _
  refine ⟨master, extended, hmaster, ?_, hkey⟩
  simp only [Bip32.keyAt, hpath, hchildren, Option.map_some, Option.bind_eq_bind, Option.bind_some]
  exact hlevels

section

variable {lib : Libraries} {guard : Guard KeyCmd KeyChoice Empty Unit} {s : Unit}
  {history : List KeyEntry}

/-- The seed that the request opens to, and the key at the index of the request. -/
theorem answers_handleDeriveWallet (r : Request DeriveWalletRequest) :
    Meets (signer lib) guard (Answers fun payload => ∃ req response seed key, r.body = some req ∧
      payload = .deriveWallet response ∧
      response.derivationPath = derivationPath req.derivIndex.toNat ∧
      (∃ plaintext, openedWith lib plaintext req.encryptedSeed req.seedNonce = some seed) ∧
      deriveAddress lib seed req.derivIndex = .ok (response.address, key))
      (handleDeriveWallet lib r) s history := by
  apply meets_withBody
  · intro req hbody
    apply meets_ifOk (meets_decryptOrgSeed req.encryptedSeed req.seedNonce req.encryptedDek)
    · intro seed s' history' hseed
      obtain ⟨plaintext, _, hopen⟩ := hseed seed rfl
      apply meets_ifOk_ofExcept
      · rintro ⟨address, key⟩ hderive response heq hstatus
        cases heq
        exact ⟨req, _, seed, key, hbody, rfl, rfl, ⟨plaintext, hopen⟩, hderive⟩
      · intro error
        exact answers_writeError (by decide) _
    · intro error s' history' _
      exact answers_writeError (by decide) _
  · exact answers_writeError (by decide) _
  · exact answers_writeError (by decide) _

end

/-- **When paths denote the keys they name.**  For every library, every path that is
    accepted and every answer of `HandleDeriveWallet`: the key that is derived is the
    one BIP32 assigns to the literal path exactly if the last component is a number
    below 2^31. -/
theorem derivation_denotes_iff (lib : Libraries) :
    (∀ (path : Text) index seed address key, parseDerivIndex path = .ok index →
      deriveAddress lib seed index = .ok (address, key) →
      ((NamesKey lib seed path key ↔ LastBelow path) ∧ (index.toNat < 2 ^ 31 ↔ LastBelow path))) ∧
    ∀ (r : Request DeriveWalletRequest) response s history,
      Completes (signer lib) Guard.any (handleDeriveWallet lib r) () [] (.ok response)
        s history → response.status = 200 →
      ∃ req answer seed key, r.body = some req ∧ response.payload = .deriveWallet answer ∧
        (∃ plaintext, openedWith lib plaintext req.encryptedSeed req.seedNonce = some seed) ∧
        deriveAddress lib seed req.derivIndex = .ok (answer.address, key) ∧
        (NamesKey lib seed answer.derivationPath key ↔ req.derivIndex.toNat < 2 ^ 31) := by
  constructor
  · intro path index seed address key hparse hderive
    have hbelow := lastBelow_iff hparse
    rw [hbelow]
    exact ⟨namesKey_iff hparse hderive, Iff.rfl⟩
  · intro r response s history hrun hstatus
    obtain ⟨req, answer, seed, key, hbody, hpayload, hpath, hopen, hderive⟩ :=
      hrun.meets (answers_handleDeriveWallet r) response rfl hstatus
    refine ⟨req, answer, seed, key, hbody, hpayload, hopen, hderive, ?_⟩
    have hparse := parseDerivIndex_derivationPath req.derivIndex.toNat_lt
    rw [UInt32.ofNat_toNat] at hparse
    rw [hpath]
    exact namesKey_iff hparse hderive

/-- The first path of the seed names its first key. -/
theorem derivation_denotes_iff_first :
    NamesKey Sample.libraries Sample.seed "m/44'/60'/0'/0/0".toList Sample.key0 := by
  have hdenotes := (derivation_denotes_iff Sample.libraries).1 "m/44'/60'/0'/0/0".toList 0
    Sample.seed "0xF278cF59F82eDcf871d630F28EcC8056f25C1cdb".toList Sample.key0
      (by decide) (by decide)
  exact hdenotes.1.mpr (hdenotes.2.mp (by decide))

namespace Sample

def hardenedKey : Bytes :=
  bytes 32 0x79983016afcd45c64b931c0ad0eecc5090bb26482004ef27a37ea83dc8faaadb

def hardenedAddress : Bytes := bytes 20 0xd26df958ae2ac9b7c9e18aebd20a365a5f3585ee

def hardenedKeccak256 (b : Bytes) : Bytes :=
  if b = asciiHex hardenedAddress then
    bytes 32 0x2d63224d01033ebb8bca426335c4278181d4189427ab696e6ef1c40f712eba29
  else keccak256 b

/-- The libraries with the hardened child 0 of the last level. -/
def hardenedLibraries : Libraries :=
  { libraries with
    newChildKey := fun (parent : Bytes × Bytes) level =>
      if levels[4]? = some parent ∧ level = firstHardenedChild then
        some (hardenedKey,
          bytes 32 0x2d360192b613ba8dbe79dce2ca627dde66afb89eb6db0705506e0f5d4efc381e)
      else newChildKey parent level
    pubkeyToAddress := fun (key : Bytes) =>
      if key = hardenedKey then GoEthereum.bytesToAddress hardenedAddress
      else libraries.pubkeyToAddress key
    common := GoEthereum.common hardenedKeccak256
    keccak256 := hardenedKeccak256 }

end Sample

/-- Child 2^31 is derived where a path names child 2^31 without a mark. -/
theorem derivation_hardened_unmarked :
    parseDerivIndex "m/44'/60'/0'/0/2147483648".toList = .ok 0x80000000 ∧
      (∃ address, deriveAddress Sample.hardenedLibraries Sample.seed 0x80000000 =
        .ok (address, Sample.hardenedKey)) ∧
      ¬NamesKey Sample.hardenedLibraries Sample.seed "m/44'/60'/0'/0/2147483648".toList
        Sample.hardenedKey := by
  have hparse : parseDerivIndex "m/44'/60'/0'/0/2147483648".toList = .ok 0x80000000 := by
    decide
  have hderive : deriveAddress Sample.hardenedLibraries Sample.seed 0x80000000 =
      .ok ("0xd26df958ae2ac9B7C9E18aebd20a365a5f3585Ee".toList, Sample.hardenedKey) := by
    decide
  refine ⟨hparse, ⟨_, hderive⟩, ?_⟩
  rw [namesKey_iff hparse hderive]
  decide

end Signer

end BrokeTurnkey
