import BrokeTurnkey.Api.Footprint
import BrokeTurnkey.Interaction.Automaton

/-!
# How often a bootstrap token is used

`POST /api-keys` reads the stored hash, inserts the key and clears the hash in three
statements that nothing ties together.  Two requests that both read before either
clears insert a key each, and so does a request after one whose clearing update
failed.  What the order of statements must be for the token to be used once is that no
request validates it while another one is past its own validation and has not cleared
it, and that a key is never inserted without the clearing update running.
-/

namespace BrokeTurnkey

open Interaction

/-! ### The condition -/

/-- The inserts of keys and the writes to `organizations`. -/
def ApiCmd.usesToken : ApiCmd → Bool
  | .sql (.keyCreate _) | .sql (.orgUpdate _ _) | .sql (.orgCreate _ _) => true
  | _ => false

def ApiCmd.readsOrg : ApiCmd → Bool
  | .sql (.orgFindById _) => true
  | _ => false

/-- The thread may go on to insert a key or clear the token without another look at the
    organization: it stands between its validation and the end of its clearing. -/
def InFlight (thread : Api ApiOutcome) : Prop :=
  thread.MayIssue ApiCmd.usesToken ApiCmd.readsOrg

/-- The thread is about to validate: its next look at the organization may let it go on. -/
def Validates : Api ApiOutcome → Prop
  | .call (.sql (.orgFindById _)) next => ∃ reply, InFlight (next reply)
  | _ => False

/-- A thread validates only while no other one is in flight. -/
def ValidatesAlone (p : ApiPool) : Move Choice ApiEvent → Prop
  | .thread i _ => (∃ thread, p.threads[i]? = some thread ∧ Validates thread) →
      ∀ j thread, j ≠ i → p.threads[j]? = some thread → ¬InFlight thread
  | .env _ => True

/-- The answer of an insert is not lost, and a clearing update runs. -/
def ApiCmd.Clears : ApiCmd → Choice → Bool
  | .sql (.keyCreate _), choice => !choice.isLost
  | .sql (.orgUpdate _ _), choice => choice.ran
  | _, _ => true

def clears : Guard ApiCmd Choice ApiEvent ApiWorld where
  command := fun command choice _ => command.Clears choice = true
  event := fun _ _ => True

instance : clears.Decides where
  command := fun command choice _ => inferInstanceAs (Decidable (command.Clears choice = true))
  event := fun _ _ => isTrue trivial

/-- The organization stores the hash of the token. -/
def Organization.Stores (cfg : ApiConfig) (token : Text) (org : Organization) : Prop :=
  ∃ hash, truthy org.bootstrapTokenHash = some hash ∧
    AuthService.tokenMatches cfg token hash = true

/-- At most one organization stores it, as tokens are random. -/
def Unshared (cfg : ApiConfig) (token : Text) (t : ApiTables) : Prop :=
  ∀ org ∈ t.organizations, ∀ other ∈ t.organizations, org.Stores cfg token →
    other.Stores cfg token → org.id = other.id

/-! ### The stages of a request -/

inductive TokenStage where
  | idle
  | minting (orgId : Text)
  | inserting (orgId : Text)
  | clearing (orgId : Text)

namespace TokenStage

/-- The org whose token the thread has validated and not cleared. -/
def org : TokenStage → Option Text
  | .idle => none
  | .minting orgId | .inserting orgId | .clearing orgId => some orgId

/-- The thread has its insert still ahead. -/
def mayInsert : TokenStage → Bool
  | .minting _ | .inserting _ => true
  | _ => false

end TokenStage

/-- The transitions of a request that presents the token. -/
inductive TokenStep (cfg : ApiConfig) (token : Text) :
    TokenStage → (command : ApiCmd) → Except JsError command.Reply → TokenStage → Prop
  | other {command : ApiCmd} (h : command.usesToken = false)
      (reply : Except JsError command.Reply) : TokenStep cfg token .idle command reply .idle
  | validated (orgId : Text) {org : Organization} (h : org.Stores cfg token) :
      TokenStep cfg token .idle (.sql (.orgFindById orgId)) (.ok (some org)) (.minting orgId)
  | drawn (orgId : Text) (keyId : Uuid) :
      TokenStep cfg token (.minting orgId) .randomUUID (.ok keyId) (.inserting orgId)
  | drawFailed (orgId : Text) (error : JsError) :
      TokenStep cfg token (.minting orgId) .randomUUID (.error error) .idle
  | inserted (orgId : Text) (data : NewApiKey) (key : ApiKey) :
      TokenStep cfg token (.inserting orgId) (.sql (.keyCreate data)) (.ok key) (.clearing orgId)
  | insertFailed (orgId : Text) (data : NewApiKey) (error : JsError) :
      TokenStep cfg token (.inserting orgId) (.sql (.keyCreate data)) (.error error) .idle
  | cleared (orgId : Text) (reply : Except JsError Unit) :
      TokenStep cfg token (.clearing orgId) (.sql (.orgUpdate orgId none)) reply .idle

/-- A thread ends with nothing validated. -/
def EndsIdle {α : Type} (stage : TokenStage) (_ : Except JsError α) : Prop := stage = .idle

variable {cfg : ApiConfig} {token : Text}

/-- A thread that has not ended, where it may not end. -/
theorem exists_call {stage : TokenStage} {thread : Api ApiOutcome}
    (h : Follows (TokenStep cfg token) EndsIdle stage thread) (hstage : stage ≠ .idle) :
    ∃ command next, thread = .call command next := by
  cases thread with
  | ret value => exact absurd h hstage
  | throw error => exact absurd h hstage
  | call command next => exact ⟨command, next, rfl⟩

def anyError : JsError := .error []

/-- The next command of a thread that has its key inserted clears the token. -/
theorem inFlight_of_clearing {thread : Api ApiOutcome} {orgId : Text}
    (h : Follows (TokenStep cfg token) EndsIdle (.clearing orgId) thread) : InFlight thread := by
  obtain ⟨command, next, rfl⟩ := exists_call h nofun
  obtain ⟨stage', hstep, _⟩ := h (.error anyError)
  cases hstep with
  | cleared orgId reply => exact .inl rfl

theorem inFlight_of_inserting {thread : Api ApiOutcome} {orgId : Text}
    (h : Follows (TokenStep cfg token) EndsIdle (.inserting orgId) thread) : InFlight thread := by
  obtain ⟨command, next, rfl⟩ := exists_call h nofun
  obtain ⟨stage', hstep, _⟩ := h (.error anyError)
  cases hstep with
  | insertFailed orgId data error => exact .inl rfl

theorem inFlight_of_minting {thread : Api ApiOutcome} {orgId : Text}
    (h : Follows (TokenStep cfg token) EndsIdle (.minting orgId) thread) : InFlight thread := by
  obtain ⟨command, next, rfl⟩ := exists_call h nofun
  obtain ⟨stage', hstep, _⟩ := h (.error anyError)
  cases hstep with
  | drawFailed orgId error =>
    -- an answer to `randomUUID` leads to the insert
    obtain ⟨stage', hstep, hnext⟩ := h (.ok ⟨List.replicate 16 0, rfl⟩)
    cases hstep with
    | drawn orgId keyId => exact .inr ⟨rfl, _, inFlight_of_inserting hnext⟩

/-- Whoever has validated and not cleared is in flight. -/
theorem inFlight_of_follows {stage : TokenStage} {thread : Api ApiOutcome} {orgId : Text}
    (h : Follows (TokenStep cfg token) EndsIdle stage thread) (hstage : stage.org = some orgId) :
    InFlight thread := by
  cases stage with
  | idle => cases hstage
  | minting orgId => exact inFlight_of_minting h
  | inserting orgId => exact inFlight_of_inserting h
  | clearing orgId => exact inFlight_of_clearing h

/-! ### What the statements do -/

/-- Other statements leave the organizations and the number of keys as they are. -/
theorem sql_other {statement : ApiSql} (hother : (ApiCmd.sql statement).usesToken = false)
    (id : Uuid) (now : Int) (t : ApiTables) :
    (statement.exec id now t).2.organizations = t.organizations ∧
      (statement.exec id now t).2.apiKeys.length = t.apiKeys.length := by
  have hagree := statement.exec_agree id now t
  cases statement with
  | keyCreate data => cases hother
  | orgCreate name slug => cases hother
  | orgUpdate orgId hash => cases hother
  | keyUpdate rowId fields => exact ⟨rfl, List.length_map ..⟩
  | _ => exact ⟨hagree.organizations nofun, congrArg List.length (hagree.apiKeys nofun)⟩

theorem exec_other {command : ApiCmd} (hother : command.usesToken = false) {choice : Choice}
    {w w' : ApiWorld} {reply : Except JsError command.Reply}
    (h : command.exec choice w = some (reply, w')) :
    w'.tables.organizations = w.tables.organizations ∧
      w'.tables.apiKeys.length = w.tables.apiKeys.length := by
  cases command with
  | base command =>
    obtain ⟨base, _, rfl⟩ := ApiCmd.exec_base h
    exact ⟨rfl, rfl⟩
  | sql statement =>
    rcases ApiCmd.exec_sql h with ⟨id, _, rfl, _⟩ | ⟨error, _, _, _, rfl⟩
    · exact sql_other hother id w.clock w.tables
    · exact ⟨rfl, rfl⟩
  | randomUUID =>
    obtain ⟨id, rfl⟩ := ApiCmd.exec_randomUUID h
    exact ⟨rfl, rfl⟩
  | signHash wallet key hash =>
    rw [ApiCmd.exec_query rfl h]
    exact ⟨rfl, rfl⟩
  | fork job =>
    rw [ApiCmd.exec_query rfl h]
    exact ⟨rfl, rfl⟩

/-- An insert of a key whose answer is not lost adds one row, or fails and adds none. -/
theorem exec_keyCreate {data : NewApiKey} {choice : Choice} {w w' : ApiWorld}
    {reply : Except JsError ApiKey}
    (h : ApiCmd.exec (.sql (.keyCreate data)) choice w = some (reply, w'))
    (hlost : choice.isLost = false) :
    w'.tables.organizations = w.tables.organizations ∧
      w'.tables.apiKeys.length ≤ w.tables.apiKeys.length + 1 ∧
      (∀ error, reply = .error error → w'.tables.apiKeys.length = w.tables.apiKeys.length) := by
  rcases ApiCmd.exec_sql h with ⟨id, _, rfl, ⟨rfl, rfl⟩ | ⟨error, rfl, _, _⟩⟩ |
    ⟨error, _, _, _, rfl⟩
  · refine ⟨((ApiSql.keyCreate data).exec_agree id w.clock w.tables).organizations nofun, ?_⟩
    simp only [ApiSql.exec]
    cases hcreate : ApiKeyRepository.create data id w.clock w.tables with
    | error error => exact ⟨Nat.le_succ _, fun _ _ => rfl⟩
    | ok result =>
      obtain ⟨row, t'⟩ := result
      obtain ⟨org, _, _, rfl, rfl⟩ := ApiKeyRepository.create_eq_ok hcreate
      exact ⟨by simp [ApiTables.write], nofun⟩
  · cases hlost
  · exact ⟨rfl, Nat.le_succ _, fun _ _ => rfl⟩

theorem not_lost {data : NewApiKey} {choice : Choice}
    (h : (ApiCmd.sql (.keyCreate data)).Clears choice = true) : choice.isLost = false := by
  simpa [ApiCmd.Clears] using h

/-- After a clearing update that ran, no organization stores the token, if the cleared
    one was the only one that did. -/
theorem exec_clear {orgId : Text} {u : Uuid} {choice : Choice} {w w' : ApiWorld}
    {reply : Except JsError Unit} (hid : Uuid.ofText orgId = some u)
    (h : ApiCmd.exec (.sql (.orgUpdate orgId none)) choice w = some (reply, w'))
    (hran : choice.ran = true)
    (honly : ∀ org ∈ w.tables.organizations, org.Stores cfg token → org.id = u) :
    w'.tables.apiKeys.length = w.tables.apiKeys.length ∧
      ∀ org ∈ w'.tables.organizations, ¬org.Stores cfg token := by
  rcases ApiCmd.exec_sql h with ⟨id, _, rfl, _⟩ | ⟨error, rfl, _, _, _⟩
  · have hupdate : ((ApiSql.orgUpdate orgId none).exec id w.clock w.tables).2.organizations =
        w.tables.organizations.map (OrganizationRepository.updateRow u none w.clock) := by
      simp [ApiSql.exec, OrganizationRepository.update, parseUuid, hid, ApiTables.write, Except.map]
    refine ⟨congrArg List.length
      (((ApiSql.orgUpdate orgId none).exec_agree id w.clock w.tables).apiKeys
        (by simp [ApiSql.writes])), ?_⟩
    intro org horg hstores
    rw [hupdate] at horg
    obtain ⟨row, hrow, rfl⟩ := List.mem_map.mp horg
    by_cases hrowid : row.id = u
    · obtain ⟨hash, hhash, _⟩ := hstores
      simp [OrganizationRepository.updateRow, hrowid] at hhash
    · rw [OrganizationRepository.updateRow, if_neg hrowid] at hstores
      exact hrowid (honly row hrow hstores)
  · cases hran

/-- An organization that was found is stored under the id it was looked up with. -/
theorem exec_orgFindById {orgId : Text} {choice : Choice} {w w' : ApiWorld} {org : Organization}
    (h : ApiCmd.exec (.sql (.orgFindById orgId)) choice w = some (.ok (some org), w')) :
    w' = w ∧ org ∈ w.tables.organizations ∧ Uuid.ofText orgId = some org.id := by
  obtain ⟨hw, id, hreply⟩ := ApiCmd.exec_select rfl h
  obtain ⟨u, hu, hfound⟩ := map_eq_ok.mp (show OrganizationRepository.findById orgId w.tables =
    .ok (some org) from hreply)
  have hid := List.find?_some hfound
  rw [decide_eq_true_eq] at hid
  refine ⟨hw, List.mem_of_find?_eq_some hfound, ?_⟩
  rw [hid]
  exact parseUuid_eq_ok.mp hu

/-! ### The invariant -/

/-- One thread at a time is past its validation, its insert is the first, and once a key
    is in, the thread is about to clear the token or nobody stores it any more. -/
structure TokenInv (cfg : ApiConfig) (token : Text) (start : Nat) (w : ApiWorld)
    (stage : Nat → TokenStage) : Prop where
  alone : ∀ i j orgId orgId', (stage i).org = some orgId → (stage j).org = some orgId' → i = j
  count : w.tables.apiKeys.length ≤ start + 1
  first : ∀ i, (stage i).mayInsert = true → w.tables.apiKeys.length ≤ start
  spent : start < w.tables.apiKeys.length → (∃ i orgId, stage i = .clearing orgId) ∨
    ∀ org ∈ w.tables.organizations, ¬org.Stores cfg token
  only : ∀ i orgId, (stage i).org = some orgId → ∃ u, Uuid.ofText orgId = some u ∧
    ∀ org ∈ w.tables.organizations, org.Stores cfg token → org.id = u
  unshared : Unshared cfg token w.tables

namespace TokenInv

variable {start : Nat} {w w' : ApiWorld} {stage : Nat → TokenStage}

/-- Nothing changes that the invariant speaks of. -/
theorem of_eq (h : TokenInv cfg token start w stage)
    (horgs : w'.tables.organizations = w.tables.organizations)
    (hkeys : w'.tables.apiKeys.length = w.tables.apiKeys.length) :
    TokenInv cfg token start w' stage where
  alone := h.alone
  count := hkeys ▸ h.count
  first := fun i hi => hkeys ▸ h.first i hi
  spent := fun hlt => horgs ▸ h.spent (hkeys ▸ hlt)
  only := fun i orgId hi => horgs ▸ h.only i orgId hi
  unshared := by rw [Unshared, horgs]; exact h.unshared

/-- The stage of one thread changes, its org stays or is given up. -/
theorem alone_update (h : TokenInv cfg token start w stage) {i : Nat} {next : TokenStage}
    (hnext : ∀ orgId, next.org = some orgId → (stage i).org = some orgId) :
    ∀ j k orgId orgId', (Function.update stage i next j).org = some orgId →
      (Function.update stage i next k).org = some orgId' → j = k := by
  have hback : ∀ j orgId, (Function.update stage i next j).org = some orgId →
      (stage j).org = some orgId := by
    intro j orgId hj
    by_cases hji : j = i
    · subst hji
      rw [Function.update_self] at hj
      exact hnext orgId hj
    · rwa [Function.update_of_ne hji] at hj
  intro j k orgId orgId' hj hk
  exact h.alone j k orgId orgId' (hback j orgId hj) (hback k orgId' hk)

/-- A thread that has its token cleared, or fails before its insert, gives it up. -/
theorem give_up (h : TokenInv cfg token start w stage) {i : Nat} {orgId : Text}
    (hi : (stage i).org = some orgId)
    (horgs : ∀ org ∈ w'.tables.organizations, org.Stores cfg token →
      org ∈ w.tables.organizations)
    (hkeys : w'.tables.apiKeys.length = w.tables.apiKeys.length)
    (hspent : start < w.tables.apiKeys.length →
      ∀ org ∈ w'.tables.organizations, ¬org.Stores cfg token) :
    TokenInv cfg token start w' (Function.update stage i .idle) where
  alone := h.alone_update nofun
  count := hkeys ▸ h.count
  first := by
    intro j hj
    by_cases hji : j = i
    · subst hji
      rw [Function.update_self] at hj
      cases hj
    · rw [Function.update_of_ne hji] at hj
      exact hkeys ▸ h.first j hj
  spent := fun hlt => .inr (hspent (hkeys ▸ hlt))
  only := by
    intro j orgId' hj
    by_cases hji : j = i
    · subst hji
      rw [Function.update_self] at hj
      cases hj
    · rw [Function.update_of_ne hji] at hj
      exact absurd (h.alone j i orgId' orgId hj hi) hji
  unshared := fun org horg other hother hstores hstores' =>
    h.unshared org (horgs org horg hstores) other (horgs other hother hstores') hstores hstores'

/-- The thread whose insert is ahead goes on to the next stage. -/
theorem go_on (h : TokenInv cfg token start w stage) {i : Nat} {orgId : Text} {next : TokenStage}
    (hi : (stage i).org = some orgId) (hnext : next.org = some orgId)
    (horgs : w'.tables.organizations = w.tables.organizations)
    (hcount : w'.tables.apiKeys.length ≤ start + 1)
    (hfirst : next.mayInsert = true → w'.tables.apiKeys.length ≤ start)
    (hspent : start < w'.tables.apiKeys.length → next = .clearing orgId) :
    TokenInv cfg token start w' (Function.update stage i next) where
  alone := h.alone_update fun orgId' horg => by rw [hi, ← hnext, horg]
  count := hcount
  first := by
    intro j hj
    by_cases hji : j = i
    · subst hji
      rw [Function.update_self] at hj
      exact hfirst hj
    · rw [Function.update_of_ne hji] at hj
      cases hstage : stage j with
      | idle => rw [hstage] at hj; cases hj
      | minting orgId' => exact absurd (h.alone j i orgId' orgId (by rw [hstage]; rfl) hi) hji
      | inserting orgId' => exact absurd (h.alone j i orgId' orgId (by rw [hstage]; rfl) hi) hji
      | clearing orgId' => rw [hstage] at hj; cases hj
  spent := fun hlt => .inl ⟨i, orgId, by rw [Function.update_self]; exact hspent hlt⟩
  only := by
    intro j orgId' hj
    rw [horgs]
    by_cases hji : j = i
    · subst hji
      rw [Function.update_self, hnext] at hj
      cases hj
      exact h.only j orgId hi
    · rw [Function.update_of_ne hji] at hj
      exact absurd (h.alone j i orgId' orgId hj hi) hji
  unshared := by rw [Unshared, horgs]; exact h.unshared

/-- A thread that validates alone is the one to insert. -/
theorem validate (h : TokenInv cfg token start w stage) {i : Nat} {orgId : Text}
    {org : Organization} (halone : ∀ j, j ≠ i → (stage j).org = none)
    (hi : stage i = .idle) (horg : org ∈ w.tables.organizations)
    (hid : Uuid.ofText orgId = some org.id) (hstores : org.Stores cfg token) :
    TokenInv cfg token start w (Function.update stage i (.minting orgId)) := by
  have hnobody : ∀ j orgId', (stage j).org ≠ some orgId' := by
    intro j orgId' hj
    by_cases hji : j = i
    · rw [hji, hi] at hj
      cases hj
    · rw [halone j hji] at hj
      cases hj
  have hfirst : w.tables.apiKeys.length ≤ start := by
    by_contra hlt
    rcases h.spent (Nat.lt_of_not_le hlt) with ⟨j, orgId', hj⟩ | hnone
    · exact hnobody j orgId' (by rw [hj]; rfl)
    · exact hnone org horg hstores
  have honly : ∀ j orgId', (Function.update stage i (.minting orgId) j).org = some orgId' →
      j = i ∧ orgId' = orgId := by
    intro j orgId' hj
    by_cases hji : j = i
    · subst hji
      rw [Function.update_self] at hj
      exact ⟨rfl, (Option.some.inj hj).symm⟩
    · rw [Function.update_of_ne hji] at hj
      exact absurd hj (hnobody j orgId')
  refine ⟨?_, h.count, fun _ _ => hfirst, fun hlt => absurd hlt (Nat.not_lt.mpr hfirst), ?_,
    h.unshared⟩
  · intro j k orgId' orgId'' hj hk
    exact (honly j orgId' hj).1.trans (honly k orgId'' hk).1.symm
  · intro j orgId' hj
    obtain ⟨_, rfl⟩ := honly j orgId' hj
    exact ⟨org.id, hid, fun other hother hstores' =>
      h.unshared other hother org horg hstores' hstores⟩

end TokenInv

/-- While one thread validates, no other has anything validated. -/
theorem alone_of_allowed {p : ApiPool} {stage : Nat → TokenStage} {i : Nat} {choice : Choice}
    {orgId : Text} {next : Except JsError (Option Organization) → Api ApiOutcome}
    {reply : Except JsError (Option Organization)}
    (hp : Staged (TokenStep cfg token) EndsIdle .idle p stage)
    (hthread : p.threads[i]? = some (.call (.sql (.orgFindById orgId)) next))
    (hallowed : ValidatesAlone p (.thread i choice))
    (hnext : Follows (TokenStep cfg token) EndsIdle (.minting orgId) (next reply)) :
    ∀ j, j ≠ i → (stage j).org = none := by
  intro j hji
  rw [Option.eq_none_iff_forall_not_mem]
  intro orgId' hj
  have hvalidates : Validates (.call (.sql (.orgFindById orgId)) next) :=
    ⟨reply, inFlight_of_minting hnext⟩
  cases hthread' : p.threads[j]? with
  | none =>
    rw [hp.idle j (List.getElem?_eq_none_iff.mp hthread')] at hj
    cases hj
  | some thread =>
    exact hallowed ⟨_, hthread, hvalidates⟩ j thread hji hthread'
      (inFlight_of_follows (hp.follows j thread hthread') hj)

/-- Every move the condition allows keeps the invariant. -/
theorem TokenInv.step {start : Nat} (p : ApiPool) (stage : Nat → TokenStage) (i : Nat)
    (command : ApiCmd) (next : Except JsError command.Reply → Api ApiOutcome) (choice : Choice)
    (reply : Except JsError command.Reply) (w' : ApiWorld) (stage' : TokenStage)
    (hp : Staged (TokenStep cfg token) EndsIdle .idle p stage)
    (hinv : TokenInv cfg token start p.state stage)
    (hthread : p.threads[i]? = some (.call command next))
    (hguard : clears.command command choice p.state)
    (hallowed : ValidatesAlone p (.thread i choice))
    (hexec : command.exec choice p.state = some (reply, w'))
    (hstep : TokenStep cfg token (stage i) command reply stage')
    (hnext : Follows (TokenStep cfg token) EndsIdle stage' (next reply)) :
    TokenInv cfg token start w' (Function.update stage i stage') := by
  generalize hstage : stage i = before at hstep
  cases hstep with
  | other hother reply =>
    obtain ⟨horgs, hkeys⟩ := exec_other hother hexec
    rw [← hstage, Function.update_eq_self]
    exact hinv.of_eq horgs hkeys
  | validated orgId hstores =>
    obtain ⟨rfl, horg, hid⟩ := exec_orgFindById hexec
    exact hinv.validate (alone_of_allowed hp hthread hallowed hnext) hstage horg hid hstores
  | drawn orgId keyId =>
    obtain ⟨_, rfl⟩ := ApiCmd.exec_randomUUID hexec
    have hfirst := hinv.first i (by rw [hstage]; rfl)
    exact hinv.go_on (by rw [hstage]; rfl) rfl rfl (Nat.le_succ_of_le hfirst) (fun _ => hfirst)
      (fun hlt => absurd hlt (Nat.not_lt.mpr hfirst))
  | drawFailed orgId error =>
    obtain ⟨_, rfl⟩ := ApiCmd.exec_randomUUID hexec
    have hfirst := hinv.first i (by rw [hstage]; rfl)
    exact hinv.give_up (by rw [hstage]; rfl) (fun _ h _ => h) rfl
      (fun hlt => absurd hlt (Nat.not_lt.mpr hfirst))
  | inserted orgId data key =>
    obtain ⟨horgs, hcount, _⟩ := exec_keyCreate hexec (not_lost hguard)
    have hfirst := hinv.first i (by rw [hstage]; rfl)
    exact hinv.go_on (by rw [hstage]; rfl) rfl horgs (hcount.trans (Nat.succ_le_succ hfirst))
      nofun (fun _ => rfl)
  | insertFailed orgId data error =>
    obtain ⟨horgs, _, hkeys⟩ := exec_keyCreate hexec (not_lost hguard)
    have hfirst := hinv.first i (by rw [hstage]; rfl)
    exact hinv.give_up (by rw [hstage]; rfl) (fun _ h _ => horgs ▸ h) (hkeys error rfl)
      (fun hlt => absurd hlt (Nat.not_lt.mpr hfirst))
  | cleared orgId reply =>
    obtain ⟨u, hu, honly⟩ := hinv.only i orgId (by rw [hstage]; rfl)
    obtain ⟨hkeys, hnone⟩ := exec_clear hu hexec hguard honly
    exact hinv.give_up (by rw [hstage]; rfl) (fun org h hstores => absurd hstores (hnone org h))
      hkeys (fun _ => hnone)

/-! ### The program of a request -/

/-- The commands of a program that inserts no key and writes no organization. -/
abbrev Plainly {α : Type} (p : Api α) : Prop := p.All fun command => command.usesToken = false

theorem follows_plainly {α : Type} {p : Api α} (h : Plainly p) :
    Follows (TokenStep cfg token) EndsIdle .idle p :=
  Follows.mono (fun _ _ hs => hs)
    (Follows.stay (h.mono fun _ hplain reply => TokenStep.other hplain reply))

theorem follows_plainly_bind {α β : Type} {p : Api α} {f : α → Api β} (h : Plainly p)
    (hf : ∀ value, Follows (TokenStep cfg token) EndsIdle .idle (f value)) :
    Follows (TokenStep cfg token) EndsIdle .idle (p >>= f) :=
  Follows.stay_bind (h.mono fun _ hplain reply => TokenStep.other hplain reply) hf fun _ => rfl

/-- The checks between validation and insert let the request through. -/
def Mintable (cfg : ApiConfig) (data : RegisterApiKeyDto) : Prop :=
  AuthService.assertP256PublicKey cfg data.publicKey = .ok () ∧
    ∃ scopes, AuthService.resolveScopes data.scopes true = .ok scopes

/-- A request that fails these checks inserts nothing. -/
theorem mintKey_plainly {orgId : Text} {data : RegisterApiKeyDto} (htoken : truthy (some token) ≠ none)
    (h : ¬Mintable cfg data) : Plainly (AuthService.mintKey cfg orgId data (some token)) := by
  simp only [AuthService.mintKey]
  cases hkey : AuthService.assertP256PublicKey cfg data.publicKey with
  | error error => trivial
  | ok value =>
    refine Prog.All.bind (all_ofExcept _) fun _ => ?_
    refine Prog.All.bind (Prog.All.perform rfl) fun keyId => ?_
    have hsome : (truthy (some token)).isSome = true := Option.isSome_iff_ne_none.mpr htoken
    rw [hsome]
    cases hscopes : AuthService.resolveScopes data.scopes true with
    | error error => trivial
    | ok scopes => exact absurd ⟨hkey, scopes, hscopes⟩ h

theorem insertKey_follows {orgId : Text} {data : NewApiKey} :
    Follows (TokenStep cfg token) (LeadsOr (fun _ => .clearing orgId) .idle) (.inserting orgId)
      (AuthService.insertKey data) := by
  have hcreate : Follows (TokenStep cfg token) (LeadsOr (fun _ => .clearing orgId) .idle)
      (.inserting orgId) (Api.sql (.keyCreate data)) :=
    Follows.perform_leadsOr (fun key => .inserted orgId data key)
      (fun error => .insertFailed orgId data error)
  refine Follows.leadsOr_tryCatch hcreate ?_ ?_
  · intro key
    rfl
  · intro error
    split <;> rfl

/-- From the insert on. -/
theorem storeKey_follows {orgId : Text} {data : NewApiKey} (htoken : truthy (some token) ≠ none) :
    Follows (TokenStep cfg token) EndsIdle (.inserting orgId)
      (AuthService.storeKey orgId data (some token)) := by
  refine Follows.leadsOr_bind insertKey_follows (fun key => ?_) (fun _ => rfl)
  obtain ⟨value, hvalue⟩ := Option.ne_none_iff_exists'.mp htoken
  have hclear : Follows (TokenStep cfg token) (LeadsOr (fun _ => .idle) .idle) (.clearing orgId)
      (AuthService.clearToken orgId (some token)) := by
    rw [AuthService.clearToken, hvalue]
    exact Follows.perform_leadsOr (fun _ => .cleared orgId _) (fun _ => .cleared orgId _)
  refine Follows.leadsOr_bind hclear (fun _ => ?_) (fun _ => rfl)
  exact follows_plainly (Prog.All.bind (Prog.All.perform rfl) fun _ => trivial)

/-- From the key checks on, for a request they let through. -/
theorem mintKey_follows {orgId : Text} {data : RegisterApiKeyDto}
    (htoken : truthy (some token) ≠ none) (h : Mintable cfg data) :
    Follows (TokenStep cfg token) EndsIdle (.minting orgId)
      (AuthService.mintKey cfg orgId data (some token)) := by
  obtain ⟨hkey, scopes, hscopes⟩ := h
  have hsome : (truthy (some token)).isSome = true := Option.isSome_iff_ne_none.mpr htoken
  have hdraw : Follows (TokenStep cfg token) (LeadsOr (fun _ => .inserting orgId) .idle)
      (.minting orgId) Api.randomUUID :=
    Follows.perform_leadsOr (fun keyId => .drawn orgId keyId) (fun error => .drawFailed orgId error)
  simp only [AuthService.mintKey, hkey, hsome, hscopes]
  change Follows _ _ _ (Api.randomUUID >>= _)
  refine Follows.leadsOr_bind hdraw (fun keyId => ?_) (fun _ => rfl)
  exact storeKey_follows htoken

/-- A validation that passes leads to the insert, or nowhere. -/
theorem validate_follows {orgId : Text} {next : TokenStage}
    (hnext : next = .minting orgId ∨ next = .idle) :
    Follows (TokenStep cfg token) (LeadsOr (fun _ => next) .idle) .idle
      (AuthService.validateBootstrapToken cfg orgId token) := by
  have hread : Follows (TokenStep cfg token) (fun stage outcome =>
      (∃ org, outcome = .ok (some org) ∧ org.Stores cfg token ∧ stage = next) ∨
      (∀ org, outcome = .ok (some org) → ¬org.Stores cfg token) ∧ stage = .idle) .idle
      (Api.sql (.orgFindById orgId)) := by
    refine Follows.perform fun reply => ?_
    by_cases hstores : ∃ org, reply = .ok (some org) ∧ org.Stores cfg token
    · obtain ⟨org, rfl, horg⟩ := hstores
      rcases hnext with rfl | rfl
      · exact ⟨_, .validated orgId horg, .inl ⟨org, rfl, horg, rfl⟩⟩
      · exact ⟨_, .other rfl _, .inl ⟨org, rfl, horg, rfl⟩⟩
    · exact ⟨_, .other rfl _, .inr ⟨fun org horg hs => hstores ⟨org, horg, hs⟩, rfl⟩⟩
  refine Follows.bind hread ?_ ?_
  · intro stage org h
    split
    · rename_i hnone
      rcases h with ⟨org', horg, ⟨hash, hhash, _⟩, _⟩ | ⟨_, hidle⟩
      · rw [Except.ok.inj horg, Option.bind_some, hhash] at hnone
        cases hnone
      · exact hidle
    · rename_i hash hhash
      split
      · rename_i hmatches
        rcases h with ⟨org', _, _, hstage⟩ | ⟨hnot, _⟩
        · exact hstage
        · cases org with
          | none => cases hhash
          | some org => exact absurd ⟨hash, hhash, hmatches⟩ (hnot org rfl)
      · rename_i hmismatch
        rcases h with ⟨org', horg, ⟨hash', hhash', hmatches⟩, _⟩ | ⟨_, hidle⟩
        · rw [Except.ok.inj horg, Option.bind_some, hhash', Option.some.injEq] at hhash
          rw [hhash] at hmatches
          exact absurd hmatches hmismatch
        · exact hidle
  · intro stage error h
    rcases h with ⟨org, horg, _⟩ | ⟨_, hidle⟩
    · cases horg
    · exact hidle

theorem registerApiKey_follows {orgId : Text} {data : RegisterApiKeyDto}
    {requestingKeyId : Option Text} (htoken : truthy (some token) = some token) :
    Follows (TokenStep cfg token) EndsIdle .idle
      (AuthService.registerApiKey cfg orgId data (some token) requestingKeyId) := by
  have hne : truthy (some token) ≠ none := by rw [htoken]; nofun
  have hlookup : Plainly (Api.sql (.orgFindById orgId)) := Prog.All.perform rfl
  refine follows_plainly_bind hlookup fun org => ?_
  cases org with
  | none => rfl
  | some org =>
    simp only [AuthService.authorise, htoken]
    by_cases hmint : Mintable cfg data
    · refine Follows.leadsOr_bind (validate_follows (.inl rfl)) (fun _ => ?_) (fun _ => rfl)
      exact mintKey_follows hne hmint
    · refine Follows.leadsOr_bind (validate_follows (.inr rfl)) (fun _ => ?_) (fun _ => rfl)
      exact follows_plainly (mintKey_plainly hne hmint)

/-- A request that presents the token, with a stamp or without. -/
theorem post_follows {body : RegisterApiKeyDto} {request : HttpRequest}
    (htoken : truthy request.xBootstrapToken = some token) :
    Follows (TokenStep cfg token) EndsIdle .idle
      ((Activity.registerApiKey body request).start cfg) := by
  have hsome : truthy (some token) = some token := by
    rw [← htoken, truthy, truthy, Option.filter_filter]
    simp
  have hpost : Follows (TokenStep cfg token) EndsIdle .idle
      (ApiKeysController.post cfg body request) := by
    have hguard : Plainly
        (StampVerifierGuard.canActivate cfg ApiKeysController.registerRoute request) :=
      StampVerifierGuard.canActivate_all (P := fun command => command.usesToken = false) rfl
        (fun _ => rfl) (fun _ => rfl) _ _ _
    refine follows_plainly_bind hguard fun user => ?_
    rw [ApiKeysController.registerApiKey, htoken]
    refine follows_plainly_bind ?_ fun orgId => ?_
    · simp only [ApiKeysController.resolveOrgId]
      split
      · trivial
      · exact Prog.All.bind (Prog.All.perform rfl) fun _ => trivial
      · trivial
    · split
      · rfl
      · exact registerApiKey_follows hsome
  exact Follows.bind hpost (fun stage value h => h) (fun stage error h => h)

/-! ### Every run -/

/-- What a command leaves running in the background. -/
theorem spawned_plainly (command : ApiCmd) (thread : Api ApiOutcome)
    (hthread : thread ∈ apiSpawns cfg command) : Plainly thread := by
  cases command with
  | base command =>
    cases command with
    | fork job =>
      rw [List.mem_singleton.mp hthread]
      exact all_map (all_api (fun _ => rfl) _)
    | _ => cases hthread
  | fork job =>
    rw [List.mem_singleton.mp hthread]
    cases job with
    | touch apiKeyId lastUsedAt =>
      exact all_map (Prog.All.tryCatch (Prog.All.perform rfl) fun _ => trivial)
  | _ => cases hthread

/-- Any number of `POST /api-keys`. -/
def posts (requests : List (RegisterApiKeyDto × HttpRequest)) : List Activity :=
  requests.map fun request => .registerApiKey request.1 request.2

/-- The requests present one token. -/
def PresentToken (token : Text) (requests : List (RegisterApiKeyDto × HttpRequest)) : Prop :=
  ∀ request ∈ requests, truthy request.2.xBootstrapToken = some token

theorem posts_staged {requests : List (RegisterApiKeyDto × HttpRequest)} {w : ApiWorld}
    (hrequests : PresentToken token requests) :
    Staged (TokenStep cfg token) EndsIdle .idle (apiPool cfg (posts requests) w)
      (fun _ => .idle) where
  follows := by
    intro i thread hthread
    obtain ⟨activity, hactivity, rfl⟩ := List.mem_map.mp (List.mem_of_getElem? hthread)
    obtain ⟨request, hrequest, rfl⟩ := List.mem_map.mp hactivity
    exact post_follows (hrequests request hrequest)
  idle := fun _ _ => rfl

/-- Nothing is validated in the beginning. -/
theorem TokenInv.start {w : ApiWorld} (hunshared : Unshared cfg token w.tables) :
    TokenInv cfg token w.tables.apiKeys.length w fun _ => .idle where
  alone := by simp [TokenStage.org]
  count := Nat.le_succ _
  first := by simp [TokenStage.mayInsert]
  spent := fun hlt => absurd hlt (Nat.lt_irrefl _)
  only := by simp [TokenStage.org]
  unshared := hunshared

/-- **A bootstrap token registers one key**, in every run of requests that present it in
    which a request validates it only while no other one is between its validation and
    its clearing, no insert loses its answer, and every clearing update runs. -/
theorem bootstrap_single_use {requests : List (RegisterApiKeyDto × HttpRequest)} {w : ApiWorld}
    (hunshared : Unshared cfg token w.tables) (hrequests : PresentToken token requests)
    {p : ApiPool}
    (hreach : ReachWithin (api cfg) clears ValidatesAlone (apiPool cfg (posts requests) w) p) :
    p.state.tables.apiKeys.length ≤ w.tables.apiKeys.length + 1 := by
  obtain ⟨stage, _, hinv⟩ := ReachWithin.staged TokenInv.step (posts_staged hrequests)
    (TokenInv.start hunshared) (fun command thread h => follows_plainly (spawned_plainly _ _ h))
    (by
      intro event s s' stage hinv _ henv
      cases henv
      cases event with
      | tick duration => exact hinv.of_eq rfl rfl
      | evict keep => exact hinv.of_eq rfl rfl)
    hreach
  exact hinv.count

/-- The only thread of a pool is alone. -/
theorem validatesAlone_of_single (p : ApiPool) (m : Move Choice ApiEvent)
    (h : decide (p.threads.length ≤ 1) = true) : ValidatesAlone p m := by
  rw [decide_eq_true_eq] at h
  cases m with
  | env event => trivial
  | thread i choice =>
    rintro ⟨thread, hthread, _⟩ j other hji hother
    have hi := (List.getElem?_eq_some_iff.mp hthread).1
    have hj := (List.getElem?_eq_some_iff.mp hother).1
    omega

namespace ApiSample

/-- A request that registers this key with the bootstrap token. -/
def registration (publicKey : Text) : RegisterApiKeyDto × HttpRequest :=
  (⟨"admin".toList, publicKey, none⟩,
    { method := "POST".toList
      path := "/api-keys".toList
      xStamp := none
      xBootstrapToken := some ApiSample.token
      rawBody := none })

/-- The moves of one request, whose key id and row id are told apart by `n`. -/
def registering (i : Nat) (n : UInt8) (clear : Choice) : List (Move Choice ApiEvent) :=
  [.done keyRow, .done keyRow, .done keyRow, .done (Sample.freshId n),
    .done (Sample.freshId (n + 1)), clear, .done keyRow].map (Move.thread i)

/-- Two requests take turns. -/
def takingTurns : List (Move Choice ApiEvent) :=
  (List.zipWith (fun first second => [first, second]) (registering 0 10 (.done keyRow))
    (registering 1 20 (.done keyRow))).flatten

/-- The clearing update of the first request fails, and the second one starts after it. -/
def notCleared : List (Move Choice ApiEvent) :=
  (registering 0 10 (.reject anyError)).take 6 ++ registering 1 20 (.done keyRow)

theorem unshared : Unshared config ApiSample.token (world []).tables := by
  intro first hfirst second hsecond _ _
  rw [List.mem_singleton.mp hfirst, List.mem_singleton.mp hsecond]

end ApiSample

open ApiSample in
/-- One request registers one key. -/
theorem bootstrap_single_use_once :
    ∃ p, ReachWithin (api config) clears ValidatesAlone
        (apiPool config (posts [registration publicKey]) (world [])) p ∧
      p.threads.all Prog.isDone = true ∧ p.state.tables.apiKeys.length = 1 ∧
      p.state.tables.apiKeys.length ≤ (world []).tables.apiKeys.length + 1 := by
  obtain ⟨p, hreach, hp⟩ := ReachWithin.exists_of_run (api config) clears validatesAlone_of_single
    (apiPool config (posts [registration publicKey]) (world [])) (registering 0 10 (.done keyRow))
    (fun p => decide (p.threads.all Prog.isDone = true ∧ p.state.tables.apiKeys.length = 1))
    (by decide)
  obtain ⟨hdone, hlength⟩ := of_decide_eq_true hp
  refine ⟨p, hreach, hdone, hlength, bootstrap_single_use unshared ?_ hreach⟩
  intro request hrequest
  rw [List.mem_singleton.mp hrequest]
  rfl

open ApiSample in
/-- Two requests with one token and different public keys register two keys, when they
    take turns and when the update of the first one fails. -/
theorem bootstrap_used_twice :
    PresentToken ApiSample.token [registration publicKey, registration "other".toList] ∧
      (∃ p, Reach (api config) .any (apiPool config
          (posts [registration publicKey, registration "other".toList]) (world [])) p ∧
        p.state.tables.apiKeys.map ApiKey.publicKey = [publicKey, "other".toList]) ∧
      ∃ p, Reach (api config) .any (apiPool config
          (posts [registration publicKey, registration "other".toList]) (world [])) p ∧
        p.history.all (fun entry => !entry.choice.isLost) = true ∧
        p.state.tables.apiKeys.map ApiKey.publicKey = [publicKey, "other".toList] := by
  refine ⟨by unfold PresentToken; decide, ?_, ?_⟩
  · obtain ⟨p, hreach, hp⟩ := Reach.exists_of_run (api config) .any
      (apiPool config (posts [registration publicKey, registration "other".toList]) (world []))
      takingTurns
      (fun p => decide (p.state.tables.apiKeys.map ApiKey.publicKey = [publicKey, "other".toList]))
      (by decide)
    exact ⟨p, hreach, of_decide_eq_true hp⟩
  · obtain ⟨p, hreach, hp⟩ := Reach.exists_of_run (api config) .any
      (apiPool config (posts [registration publicKey, registration "other".toList]) (world []))
      notCleared
      (fun p => decide (p.history.all (fun entry => !entry.choice.isLost) = true ∧
        p.state.tables.apiKeys.map ApiKey.publicKey = [publicKey, "other".toList]))
      (by decide)
    exact ⟨p, hreach, of_decide_eq_true hp⟩

end BrokeTurnkey
