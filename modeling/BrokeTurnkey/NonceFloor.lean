import BrokeTurnkey.Services

/-!
# What a sync guarantees of later reservations

`syncFromChain` never moves the counter back, but `release` does, and it looks at the
counter alone.  A counter that stands one above an unreleased nonce may have got there
by a sync as well as by the reservation, and then the release takes it below the value
that was synced.  Later reservations stay at or above every synced value exactly as
long as no release does that.
-/

namespace BrokeTurnkey.NonceFloor

/-- The calls of the nonce repository for one wallet and chain. -/
inductive Op where
  | reserve
  | release (nonce : Int)
  | syncFromChain (chainNonce : Option Int)

/-- The tables, the reservations that are not released, and the values that were synced. -/
structure State where
  tables : Tables
  held : List Int
  synced : List Int

section Slot

variable (walletId : Text) (chainId : Nat)

/-- One call.  A reservation is released by its holder and at most once. -/
def step : Op → State → Option State
  | .reserve, s =>
    let answer := WalletNonceRepository.reserve walletId chainId s.tables
    some { s with tables := answer.2, held := answer.1.toOption.toList ++ s.held }
  | .release nonce, s =>
    if nonce ∈ s.held then
      some { s with
        tables := (WalletNonceRepository.release walletId chainId nonce s.tables).2
        held := s.held.erase nonce }
    else none
  | .syncFromChain chainNonce, s =>
    let answer := WalletNonceRepository.syncFromChain walletId chainId chainNonce s.tables
    some { s with
      tables := answer.2
      synced := if answer.1.isOk then chainNonce.toList ++ s.synced else s.synced }

/-- A reservation made now returns no nonce below a synced value. -/
def AboveFloor (s : State) : Prop :=
  ∀ nonce t, WalletNonceRepository.reserve walletId chainId s.tables = (.ok nonce, t) →
    ∀ c ∈ s.synced, c ≤ nonce

/-- So it is in every state of the run, whether or not the run reserves there. -/
def AlwaysAbove : List Op → State → Prop
  | [], s => AboveFloor walletId chainId s
  | op :: ops, s =>
    AboveFloor walletId chainId s ∧ ∀ s', step walletId chainId op s = some s' → AlwaysAbove ops s'

/-- The release is of the newest nonce, and within the range of the column. -/
def Newest (nonce : Int) (t : Tables) : Prop :=
  ∃ wallet, Uuid.ofText walletId = some wallet ∧ t.nonces wallet chainId = some (nonce + 1) ∧
    int4Min ≤ nonce ∧ nonce + 1 ≤ int4Max

/-- A release of the newest nonce gives up nothing that was synced. -/
def Keeps (s : State) : Op → Prop
  | .release nonce => nonce ∈ s.held → Newest walletId chainId nonce s.tables →
      ∀ c ∈ s.synced, c ≤ nonce
  | _ => True

/-- So it is with every release of the run. -/
def AlwaysKeeps : List Op → State → Prop
  | [], _ => True
  | op :: ops, s =>
    Keeps walletId chainId s op ∧ ∀ s', step walletId chainId op s = some s' → AlwaysKeeps ops s'

end Slot

/-! ### The invariant -/

/-- The counter is at or above every synced value. -/
def Floor (walletId : Text) (chainId : Nat) (s : State) : Prop :=
  ∀ c ∈ s.synced, ∃ wallet nonce, Uuid.ofText walletId = some wallet ∧
    s.tables.nonces wallet chainId = some nonce ∧ c ≤ nonce

section Invariant

variable {walletId : Text} {chainId : Nat} {wallet : Uuid} {s s' : State} {t : Tables}

@[simp] theorem setNonce_nonces (t : Tables) (wallet : Uuid) (chainId : Nat) (nonce : Int) :
    (t.setNonce wallet chainId nonce).nonces wallet chainId = some nonce := by
  simp [Tables.setNonce]

theorem Floor.aboveFloor (h : Floor walletId chainId s) : AboveFloor walletId chainId s := by
  intro nonce t hreserve c hc
  obtain ⟨wallet, counter, hid, hcounter, hle⟩ := h c hc
  simp only [WalletNonceRepository.reserve, withUuid, hid, hcounter] at hreserve
  split at hreserve
  · simp at hreserve
  · simp only [Prod.mk.injEq, Except.ok.injEq] at hreserve
    rw [← hreserve.1]
    exact hle

/-- The counter goes up or stays. -/
theorem Floor.raise (h : Floor walletId chainId s)
    (hraise : ∀ wallet nonce, Uuid.ofText walletId = some wallet →
      s.tables.nonces wallet chainId = some nonce →
      ∃ nonce', t.nonces wallet chainId = some nonce' ∧ nonce ≤ nonce')
    (held : List Int) : Floor walletId chainId { tables := t, held, synced := s.synced } := by
  intro c hc
  obtain ⟨wallet, nonce, hid, hnonce, hle⟩ := h c hc
  obtain ⟨nonce', hnonce', hle'⟩ := hraise wallet nonce hid hnonce
  exact ⟨wallet, nonce', hid, hnonce', hle.trans hle'⟩

theorem reserve_raises {nonce : Int} (hid : Uuid.ofText walletId = some wallet)
    (hnonce : t.nonces wallet chainId = some nonce) :
    ∃ nonce', (WalletNonceRepository.reserve walletId chainId t).2.nonces wallet chainId =
      some nonce' ∧ nonce ≤ nonce' := by
  simp only [WalletNonceRepository.reserve, withUuid, hid, hnonce]
  split
  · exact ⟨nonce, hnonce, Int.le_refl _⟩
  · exact ⟨nonce + 1, by simp, by omega⟩

theorem sync_raises {chainNonce : Option Int} {nonce : Int}
    (hid : Uuid.ofText walletId = some wallet)
    (hnonce : t.nonces wallet chainId = some nonce) :
    ∃ nonce', (WalletNonceRepository.syncFromChain walletId chainId chainNonce t).2.nonces
      wallet chainId = some nonce' ∧ nonce ≤ nonce' := by
  cases chainNonce with
  | none => exact ⟨nonce, by simpa [WalletNonceRepository.syncFromChain, withUuid, hid], Int.le_refl _⟩
  | some c =>
    simp only [WalletNonceRepository.syncFromChain, withUuid, hid, hnonce]
    split
    · exact ⟨nonce, hnonce, Int.le_refl _⟩
    · split
      · exact ⟨c, by simp, by omega⟩
      · exact ⟨nonce, hnonce, Int.le_refl _⟩

/-- After a sync the counter is at or above the value. -/
theorem sync_reaches {chainNonce : Option Int} {c : Int} (hc : c ∈ chainNonce)
    (hok : (WalletNonceRepository.syncFromChain walletId chainId chainNonce t).1.isOk = true) :
    ∃ wallet nonce, Uuid.ofText walletId = some wallet ∧
      (WalletNonceRepository.syncFromChain walletId chainId chainNonce t).2.nonces wallet chainId =
        some nonce ∧ c ≤ nonce := by
  rw [Option.mem_def] at hc
  subst hc
  simp only [WalletNonceRepository.syncFromChain, withUuid] at hok ⊢
  split at hok
  · rename_i wallet hid
    refine ⟨wallet, ?_⟩
    split at hok
    · simp [Except.isOk, Except.toBool] at hok
    · rename_i hrange
      rw [if_neg hrange]
      cases hnonce : t.nonces wallet chainId with
      | none => exact ⟨c, hid, by simp, Int.le_refl _⟩
      | some nonce =>
        by_cases hlt : nonce < c
        · exact ⟨c, hid, by simp [hlt], Int.le_refl _⟩
        · exact ⟨nonce, hid, by simpa [hlt] using hnonce, by omega⟩
  · simp [Except.isOk, Except.toBool] at hok

/-- What a release does to the counter. -/
theorem release_cases (nonce : Int) (hid : Uuid.ofText walletId = some wallet) :
    (Newest walletId chainId nonce t ∧
      (WalletNonceRepository.release walletId chainId nonce t).2 = t.setNonce wallet chainId nonce) ∨
    (¬Newest walletId chainId nonce t ∧
      (WalletNonceRepository.release walletId chainId nonce t).2 = t) := by
  simp only [WalletNonceRepository.release, withUuid, hid, Newest]
  by_cases hrange : nonce < int4Min ∨ nonce + 1 > int4Max
  · refine .inr ⟨?_, by rw [if_pos hrange]⟩
    rintro ⟨_, _, _, hlow, hhigh⟩
    omega
  · by_cases hnewest : t.nonces wallet chainId = some (nonce + 1)
    · exact .inl ⟨⟨wallet, rfl, hnewest, by omega, by omega⟩, by rw [if_neg hrange, if_pos hnewest]⟩
    · refine .inr ⟨?_, by rw [if_neg hrange, if_neg hnewest]⟩
      rintro ⟨wallet', hid', hnonce, _⟩
      rw [Option.some.injEq] at hid'
      exact hnewest (hid' ▸ hnonce)

/-- A call that gives up nothing that was synced keeps the invariant. -/
theorem Floor.step {op : Op} (h : Floor walletId chainId s) (hkeeps : Keeps walletId chainId s op)
    (hstep : step walletId chainId op s = some s') : Floor walletId chainId s' := by
  cases op with
  | reserve =>
    simp only [NonceFloor.step, Option.some.injEq] at hstep
    rw [← hstep]
    exact h.raise (fun wallet nonce hid hnonce => reserve_raises hid hnonce) _
  | syncFromChain chainNonce =>
    simp only [NonceFloor.step, Option.some.injEq] at hstep
    rw [← hstep]
    intro c hc
    by_cases hok : (WalletNonceRepository.syncFromChain walletId chainId chainNonce s.tables).1.isOk
    · simp only [hok, if_true, List.mem_append, Option.mem_toList] at hc
      rcases hc with hc | hc
      · exact sync_reaches hc hok
      · exact h.raise (fun wallet nonce hid hnonce => sync_raises hid hnonce) s.held c hc
    · simp only [hok] at hc
      exact h.raise (fun wallet nonce hid hnonce => sync_raises hid hnonce) s.held c hc
  | release nonce =>
    simp only [NonceFloor.step] at hstep
    split at hstep
    · rename_i hheld
      simp only [Option.some.injEq] at hstep
      rw [← hstep]
      intro c hc
      obtain ⟨wallet, counter, hid, hcounter, hle⟩ := h c hc
      rcases release_cases nonce hid with ⟨hnewest, htables⟩ | ⟨_, htables⟩
      · exact ⟨wallet, nonce, hid, by simp [htables], hkeeps hheld hnewest c hc⟩
      · exact ⟨wallet, counter, hid, by simpa [htables] using hcounter, hle⟩
    · cases hstep

/-- After a release of the newest nonce, the next reservation returns it again. -/
theorem reserve_after_release {nonce : Int} (hnewest : Newest walletId chainId nonce t) :
    ∃ t', WalletNonceRepository.reserve walletId chainId
      (WalletNonceRepository.release walletId chainId nonce t).2 = (.ok nonce, t') := by
  obtain ⟨wallet, hid, _, _, hhigh⟩ := id hnewest
  have hrelease : (WalletNonceRepository.release walletId chainId nonce t).2 =
      t.setNonce wallet chainId nonce := by
    rcases release_cases nonce hid with ⟨_, htables⟩ | ⟨hnot, _⟩
    · exact htables
    · exact absurd hnewest hnot
  have hle : ¬nonce + 1 > int4Max := by omega
  simp [hrelease, WalletNonceRepository.reserve, withUuid, hid, hle]

end Invariant

/-- **Synced values are a floor of all later reservations exactly in the runs in which no
    release of the newest nonce goes below one.** -/
theorem sync_floor_iff {walletId : Text} {chainId : Nat} (ops : List Op) {s : State}
    (hstart : s.synced = []) :
    AlwaysAbove walletId chainId ops s ↔ AlwaysKeeps walletId chainId ops s := by
  have hfloor : Floor walletId chainId s := by simp [Floor, hstart]
  clear hstart
  induction ops generalizing s with
  | nil => simp [AlwaysAbove, AlwaysKeeps, hfloor.aboveFloor]
  | cons op ops ih =>
    constructor
    · rintro ⟨_, habove⟩
      have hkeeps : Keeps walletId chainId s op := by
        cases op with
        | reserve => trivial
        | syncFromChain chainNonce => trivial
        | release nonce =>
          intro hheld hnewest c hc
          obtain ⟨t', hreserve⟩ := reserve_after_release hnewest
          have hstep : step walletId chainId (.release nonce) s = some { s with
              tables := (WalletNonceRepository.release walletId chainId nonce s.tables).2
              held := s.held.erase nonce } := by
            simp only [step, if_pos hheld]
          have hnext := habove _ hstep
          cases ops with
          | nil => exact hnext nonce t' hreserve c hc
          | cons op' ops => exact hnext.1 nonce t' hreserve c hc
      exact ⟨hkeeps, fun s' hstep => (ih (hfloor.step hkeeps hstep)).mp (habove s' hstep)⟩
    · rintro ⟨hkeeps, hrest⟩
      refine ⟨hfloor.aboveFloor, fun s' hstep => ?_⟩
      exact (ih (hfloor.step hkeeps hstep)).mpr (hrest s' hstep)

/-- Nothing is reserved and nothing synced yet. -/
def untouched : State := ⟨Sample.world.tables, [], []⟩

/-- The chain is at 1 when nonce 1 is reserved and released. -/
def kept : List Op := [.reserve, .syncFromChain (some 1), .reserve, .release 1]

/-- Every reservation is at or above the value that was synced. -/
theorem sync_floor_iff_kept :
    untouched.synced = [] ∧ AlwaysAbove Sample.wallet.toText 1 kept untouched := by
  refine ⟨rfl, (sync_floor_iff kept rfl).mpr ⟨trivial, ?_⟩⟩
  rintro _ ⟨⟩
  refine ⟨trivial, ?_⟩
  rintro _ ⟨⟩
  refine ⟨trivial, ?_⟩
  rintro _ ⟨⟩
  refine ⟨?_, fun _ _ => trivial⟩
  intro _ _
  decide

/-- The reserved nonce is sent by others, so the chain is at 1, and then released. -/
def rewound : List Op := [.reserve, .syncFromChain (some 1), .release 0]

/-- Nonce 0 is reserved again although 1 was synced. -/
theorem below_synced : ¬AlwaysAbove Sample.wallet.toText 1 rewound untouched := by
  rintro ⟨_, hreserved⟩
  obtain ⟨_, hsynced⟩ := hreserved _ rfl
  obtain ⟨_, hreleased⟩ := hsynced _ rfl
  have habove := hreleased _ rfl 0 _ rfl 1
  exact absurd (habove (by decide)) (by decide)

end BrokeTurnkey.NonceFloor
