import BrokeTurnkey.Interaction.Embedding

/-!
# What one thread of a run does

A thread of a run gets its replies from a state that the other threads change.  What
can be said of it alone is relative to what is known of its replies: `Given Fact` says
of a program that as long as every reply has `Fact`, each command it issues satisfies
`P`, and it ends with `Q`.  In a run a reply is known to have been given in one of the
states the run went through, so that the rules for programs apply to one thread whatever
the others are.
-/

namespace BrokeTurnkey.Interaction

variable {C : Type} {R : C → Type} {ε α β γ σ O E : Type}

namespace Prog

/-- As long as the replies have `Fact`, the commands satisfy `P` and the outcome `Q`. -/
def Given (Fact : (command : C) → Except ε (R command) → Prop) (P : C → Prop)
    (Q : Except ε β → Prop) : Prog C R ε β → Prop
  | .ret value => Q (.ok value)
  | .throw error => Q (.error error)
  | .call command next => P command ∧ ∀ reply, Fact command reply → (next reply).Given Fact P Q

namespace Given

variable {Fact : (command : C) → Except ε (R command) → Prop} {P P' : C → Prop}
  {Q Q' : Except ε β → Prop}

theorem mono {p : Prog C R ε β} (h : p.Given Fact P Q)
    (hcommand : ∀ command, P command → P' command) (houtcome : ∀ outcome, Q outcome → Q' outcome) :
    p.Given Fact P' Q' := by
  induction p with
  | ret value => exact houtcome _ h
  | throw error => exact houtcome _ h
  | call command next ih => exact ⟨hcommand _ h.1, fun reply hfact => ih reply (h.2 reply hfact)⟩

/-- Nothing need be known of the replies for a bound on all commands. -/
theorem of_all {p : Prog C R ε β} (h : p.All P) : p.Given Fact P fun _ => True := by
  induction p with
  | ret value => trivial
  | throw error => trivial
  | call command next ih => exact ⟨h.1, fun reply _ => ih reply (h.2 reply)⟩

/-- A program is bounded by what it issues. -/
theorem issued (p : Prog C R ε β) : p.Given Fact p.Issues fun _ => True := by
  induction p with
  | ret value => trivial
  | throw error => trivial
  | call command next ih =>
    refine ⟨.here command next, fun reply _ => ?_⟩
    exact (ih reply).mono (fun _ hissues => .later reply hissues) fun _ h => h

theorem any (p : Prog C R ε β) : p.Given Fact (fun _ => True) fun _ => True :=
  (issued p).mono (fun _ _ => trivial) fun _ h => h

/-- Two bounds hold together. -/
theorem and {p : Prog C R ε β} (h : p.Given Fact P Q) (h' : p.Given Fact P' Q') :
    p.Given Fact (fun command => P command ∧ P' command) fun outcome => Q outcome ∧ Q' outcome := by
  induction p with
  | ret value => exact ⟨h, h'⟩
  | throw error => exact ⟨h, h'⟩
  | call command next ih =>
    exact ⟨⟨h.1, h'.1⟩, fun reply hfact => ih reply (h.2 reply hfact) (h'.2 reply hfact)⟩

theorem andThen {Q : Except ε γ → Prop} {p : Prog C R ε γ} {f : Except ε γ → Prog C R ε β}
    (hp : p.Given Fact P Q) (hf : ∀ outcome, Q outcome → (f outcome).Given Fact P Q') :
    (p.andThen f).Given Fact P Q' := by
  induction p with
  | ret value => exact hf _ hp
  | throw error => exact hf _ hp
  | call command next ih => exact ⟨hp.1, fun reply hfact => ih reply (hp.2 reply hfact)⟩

theorem bind {Q : Except ε γ → Prop} {p : Prog C R ε γ} {f : γ → Prog C R ε β}
    (hp : p.Given Fact P Q) (hok : ∀ value, Q (.ok value) → (f value).Given Fact P Q')
    (herr : ∀ error, Q (.error error) → Q' (.error error)) : (p >>= f).Given Fact P Q' := by
  refine andThen hp fun outcome h => ?_
  cases outcome with
  | ok value => exact hok value h
  | error error => exact herr error h

theorem map {f : γ → β} {p : Prog C R ε γ} (hp : p.Given Fact P fun _ => True) :
    (f <$> p).Given Fact P fun _ => True :=
  bind hp (fun _ _ => trivial) fun _ _ => trivial

theorem perform {command : C} {Q : Except ε (R command) → Prop} (hcommand : P command)
    (h : ∀ reply, Fact command reply → Q reply) :
    (Prog.perform command : Prog C R ε (R command)).Given Fact P Q := by
  refine ⟨hcommand, fun reply hfact => ?_⟩
  cases reply with
  | ok value => exact h _ hfact
  | error error => exact h _ hfact

/-- Under other names the replies tell the same. -/
theorem lift {C' : Type} {R' : C' → Type} {Fact : (command : C) → Except ε (R command) → Prop}
    {Fact' : (command : C') → Except ε (R' command) → Prop} {P : C' → Prop} {name : C → C'}
    {back : ∀ c, Except ε (R' (name c)) → Except ε (R c)} {p : Prog C R ε β}
    (h : p.Given Fact (fun command => P (name command)) Q)
    (hfact : ∀ command reply, Fact' (name command) reply → Fact command (back command reply)) :
    (p.lift name back).Given Fact' P Q := by
  induction p with
  | ret value => exact h
  | throw error => exact h
  | call command next ih =>
    exact ⟨h.1, fun reply hreply => ih _ (h.2 _ (hfact command reply hreply))⟩

end Given

end Prog

/-! ### Runs -/

section Runs

variable {sys : System C R ε α σ O E} {guard : Guard C O E σ} {start p : Pool C R ε α σ O}

/-- The run from `start` to `p` may have gone through this state. -/
def Visits (sys : System C R ε α σ O E) (guard : Guard C O E σ) (start p : Pool C R ε α σ O)
    (s : σ) : Prop :=
  ∃ q, Reach sys guard start q ∧ q.state = s ∧ Reach sys guard q p

/-- A run under a guard is a run. -/
theorem Reach.unguarded (h : Reach sys guard start p) : Reach sys .any start p :=
  h.mono (fun _ _ _ _ => trivial) fun _ _ _ => trivial

/-- What a run went through a longer run went through. -/
theorem Visits.mono {q : Pool C R ε α σ O} {s : σ} (h : Visits sys guard start q s)
    (hrest : Reach sys guard q p) : Visits sys guard start p s := by
  obtain ⟨r, hr, hs, hq⟩ := h
  exact ⟨r, hr, hs, Reach.trans hq hrest⟩

/-- A reply was given in a state the run went through. -/
theorem Answered.visits {i : Nat} {command : C} {reply : Except ε (R command)}
    (h : Answered sys guard start p i command reply) :
    ∃ choice s s', Visits sys guard start p s ∧ guard.command command choice s ∧
      sys.exec command choice s = some (reply, s') := by
  obtain ⟨q, q', choice, next, hq, hadm, hthread, hstep, hexec, hq'⟩ := h
  have hreach : Reach sys guard q p := Reach.trans (.move .refl hadm hstep) hq'
  exact ⟨choice, q.state, q'.state, ⟨q, hq, rfl, hreach⟩, hadm command next hthread, hexec⟩

/-- The pools of a run, each with the move that leads to the next, from the start on. -/
theorem Reach.forward {J : Pool C R ε α σ O → Prop} (hstart : J start)
    (hthread : ∀ q q' i choice command next reply, Reach sys guard start q → J q →
      q.threads[i]? = some (.call command next) → guard.Admits q (.thread i choice) →
      sys.step q (.thread i choice) = some q' →
      sys.exec command choice q.state = some (reply, q'.state) →
      q'.threads = q.threads.set i (next reply) ++ sys.spawns command →
      q'.history = entryOf i command choice reply :: q.history → Reach sys guard q' p → J q')
    (henv : ∀ q q' event, Reach sys guard start q → J q → guard.event event q.state →
      sys.env event q.state = some q'.state → q'.threads = q.threads → q'.history = q.history →
      Reach sys guard q' p → J q')
    (hreach : Reach sys guard start p) : J p := by
  have hall : ∀ q, Reach sys guard start q → Reach sys guard q p → J q := by
    intro q hq
    induction hq with
    | refl => exact fun _ => hstart
    | @move q q' m hq hadm hstep ih =>
      intro hq'
      have hJ : J q := ih (Reach.trans (.move .refl hadm hstep) hq')
      have hmoved := hstep
      cases m with
      | thread i choice =>
        simp only [System.step] at hmoved
        split at hmoved
        · rename_i command next hcall
          rw [Option.map_eq_some_iff] at hmoved
          obtain ⟨⟨reply, s'⟩, hexec, rfl⟩ := hmoved
          exact hthread q _ i choice command next reply hq hJ hcall hadm hstep hexec rfl rfl hq'
        · cases hmoved
      | env event =>
        simp only [System.step] at hmoved
        rw [Option.map_eq_some_iff] at hmoved
        obtain ⟨s', hexec, rfl⟩ := hmoved
        exact henv q _ event hq hJ hadm hexec rfl rfl hq'
  exact hall p hreach .refl

/-- What a thread has left is bounded given that every reply was given in the run, and so
    is all it has issued. -/
theorem Reach.given_thread {i : Nat} {thread : Prog C R ε α} {P : C → Prop}
    {Q : Except ε α → Prop} (hfresh : start.history = []) (hreach : Reach sys guard start p)
    (hthread : start.threads[i]? = some thread)
    (hgiven : thread.Given (Answered sys guard start p i) P Q) :
    ∃ thread', p.threads[i]? = some thread' ∧ thread'.Given (Answered sys guard start p i) P Q ∧
      ∀ entry ∈ p.history, entry.thread = i → P entry.command := by
  refine Reach.forward (J := fun q => ∃ thread', q.threads[i]? = some thread' ∧
    thread'.Given (Answered sys guard start p i) P Q ∧
    ∀ entry ∈ q.history, entry.thread = i → P entry.command) ?_ ?_ ?_ hreach
  · refine ⟨thread, hthread, hgiven, fun entry hentry => ?_⟩
    rw [hfresh] at hentry
    exact absurd hentry List.not_mem_nil
  · rintro q q' j choice command next reply hq ⟨thread', hat, hgiven', hentries⟩ hcall hadm hstep
      hexec hthreads hhistory hq'
    have hlt : i < q.threads.length := (List.getElem?_eq_some_iff.mp hat).1
    rw [hthreads, hhistory, List.getElem?_append_left (by simpa using hlt)]
    by_cases hji : j = i
    · subst hji
      rw [hat, Option.some.injEq] at hcall
      subst hcall
      have hanswered : Answered sys guard start p j command reply :=
        ⟨q, q', choice, next, hq, hadm, hat, hstep, hexec, hq'⟩
      refine ⟨next reply, List.getElem?_set_self hlt, hgiven'.2 reply hanswered, ?_⟩
      intro entry hentry hown
      rcases List.mem_cons.mp hentry with rfl | hold
      · exact hgiven'.1
      · exact hentries entry hold hown
    · refine ⟨thread', by rw [List.getElem?_set_ne hji]; exact hat, hgiven', ?_⟩
      intro entry hentry hown
      rcases List.mem_cons.mp hentry with rfl | hold
      · exact absurd hown hji
      · exact hentries entry hold hown
  · rintro q q' event _ hJ _ _ hthreads hhistory _
    rw [hthreads, hhistory]
    exact hJ

/-- **One thread of a run.**  If it is bounded given that every reply was given in the
    run, all it has issued in the run is bounded, and where it has ended, so is its
    outcome. -/
theorem Reach.given {i : Nat} {thread : Prog C R ε α} {P : C → Prop} {Q : Except ε α → Prop}
    (hfresh : start.history = []) (hreach : Reach sys guard start p)
    (hthread : start.threads[i]? = some thread)
    (hgiven : thread.Given (Answered sys guard start p i) P Q) :
    (∀ entry ∈ p.history, entry.thread = i → P entry.command) ∧
      ∀ outcome, p.threads[i]? = some (.ended outcome) → Q outcome := by
  obtain ⟨thread', hat, hgiven', hentries⟩ := Reach.given_thread hfresh hreach hthread hgiven
  refine ⟨hentries, fun outcome hended => ?_⟩
  rw [hat, Option.some.injEq] at hended
  subst hended
  cases outcome with
  | ok value => exact hgiven'
  | error error => exact hgiven'

/-- The command a thread is about to issue is bounded, on the replies given up to now. -/
theorem Reach.pending {i : Nat} {thread : Prog C R ε α} {P : C → Prop} {Q : Except ε α → Prop}
    {command : C} {next : Except ε (R command) → Prog C R ε α}
    (hfresh : start.history = []) (hreach : Reach sys guard start p)
    (hthread : start.threads[i]? = some thread)
    (hgiven : thread.Given (Answered sys guard start p i) P Q)
    (hcall : p.threads[i]? = some (.call command next)) : P command := by
  obtain ⟨thread', hat, hgiven', _⟩ := Reach.given_thread hfresh hreach hthread hgiven
  rw [hat, Option.some.injEq] at hcall
  subst hcall
  exact hgiven'.1

/-- A thread that has returned stays as it is. -/
theorem Reach.returned {i : Nat} {value : α} (hfresh : start.history = [])
    (hreach : Reach sys guard start p) (hthread : start.threads[i]? = some (.ret value)) :
    p.threads[i]? = some (.ret value) := by
  obtain ⟨thread, hat, hgiven, _⟩ := Reach.given_thread (P := fun _ => False)
    (Q := fun outcome => outcome = .ok value) hfresh hreach hthread rfl
  cases thread with
  | ret value' =>
    cases hgiven
    exact hat
  | throw error => cases hgiven
  | call command next => exact hgiven.1.elim

/-- A command of a run was issued by one of the first threads, or by a thread that an
    earlier command of the run started; and so will be what a thread has left. -/
theorem Reach.origin (hfresh : start.history = []) (hreach : Reach sys guard start p) :
    (∀ entry ∈ p.history, entry.thread < start.threads.length ∨
      ∃ earlier ∈ p.history, ∃ thread ∈ sys.spawns earlier.command, thread.Issues entry.command) ∧
      ∀ i thread, p.threads[i]? = some thread → i < start.threads.length ∨
        ∃ earlier ∈ p.history, ∃ spawned ∈ sys.spawns earlier.command,
          ∀ command, thread.Issues command → spawned.Issues command := by
  refine Reach.forward (J := fun q => (∀ entry ∈ q.history, entry.thread < start.threads.length ∨
    ∃ earlier ∈ q.history, ∃ thread ∈ sys.spawns earlier.command,
      thread.Issues entry.command) ∧
    ∀ i thread, q.threads[i]? = some thread → i < start.threads.length ∨
      ∃ earlier ∈ q.history, ∃ spawned ∈ sys.spawns earlier.command,
        ∀ command, thread.Issues command → spawned.Issues command) ?_ ?_ ?_ hreach
  · constructor
    · rw [hfresh]
      exact fun _ hentry => absurd hentry List.not_mem_nil
    · exact fun i thread hat => .inl (List.getElem?_eq_some_iff.mp hat).1
  · rintro q q' i choice command next reply _ ⟨hentries, hthreads⟩ hcall _ _ _ hmoved hhistory _
    have hlt : i < q.threads.length := (List.getElem?_eq_some_iff.mp hcall).1
    rw [hmoved, hhistory]
    constructor
    · intro entry hentry
      rcases List.mem_cons.mp hentry with rfl | hold
      · rcases hthreads i _ hcall with hfirst | ⟨earlier, hearlier, spawned, hspawned, hissues⟩
        · exact .inl hfirst
        · exact .inr ⟨earlier, List.mem_cons_of_mem _ hearlier, spawned, hspawned,
            hissues command (.here command next)⟩
      · rcases hentries entry hold with hfirst | ⟨earlier, hearlier, hspawned⟩
        · exact .inl hfirst
        · exact .inr ⟨earlier, List.mem_cons_of_mem _ hearlier, hspawned⟩
    · intro j thread hat
      rw [List.getElem?_append] at hat
      split at hat
      · have hbefore : ∃ before, q.threads[j]? = some before ∧
            ∀ command, thread.Issues command → before.Issues command := by
          by_cases hji : j = i
          · subst hji
            rw [List.getElem?_set_self hlt, Option.some.injEq] at hat
            exact ⟨_, hcall, fun _ hissues => .later reply (hat ▸ hissues)⟩
          · rw [List.getElem?_set_ne (Ne.symm hji)] at hat
            exact ⟨thread, hat, fun _ h => h⟩
        obtain ⟨before, hbefore, hissues⟩ := hbefore
        rcases hthreads j before hbefore with hfirst | ⟨earlier, hearlier, spawned, hspawned, h⟩
        · exact .inl hfirst
        · exact .inr ⟨earlier, List.mem_cons_of_mem _ hearlier, spawned, hspawned,
            fun command hcommand => h command (hissues command hcommand)⟩
      · exact .inr ⟨_, List.mem_cons_self, thread, List.mem_of_getElem? hat, fun _ h => h⟩
  · rintro q q' event _ hJ _ _ hthreads hhistory _
    rw [hthreads, hhistory]
    exact hJ

/-- What the events and the other commands keep is kept, or was changed by one of these
    commands. -/
theorem Reach.kept_or (Same : σ → σ → Prop) (P : C → Prop) (hrefl : ∀ s, Same s s)
    (htrans : ∀ {s s' s''}, Same s s' → Same s' s'' → Same s s'')
    (hcommand : ∀ command choice reply s s', ¬P command →
      sys.exec command choice s = some (reply, s') → Same s s')
    (henv : ∀ event s s', sys.env event s = some s' → Same s s')
    (hreach : Reach sys guard start p) :
    Same start.state p.state ∨ ∃ entry ∈ p.history, P entry.command := by
  refine Reach.forward (J := fun q => Same start.state q.state ∨
    ∃ entry ∈ q.history, P entry.command) (.inl (hrefl _)) ?_ ?_ hreach
  · rintro q q' i choice command next reply _ hJ _ _ _ hexec _ hhistory _
    rw [hhistory]
    by_cases hP : P command
    · exact .inr ⟨_, List.mem_cons_self, hP⟩
    · rcases hJ with hsame | ⟨entry, hentry, hentered⟩
      · exact .inl (htrans hsame (hcommand _ _ _ _ _ hP hexec))
      · exact .inr ⟨entry, List.mem_cons_of_mem _ hentry, hentered⟩
  · rintro q q' event _ hJ _ hexec _ hhistory _
    rw [hhistory]
    exact hJ.imp_left fun hsame => htrans hsame (henv _ _ _ hexec)

/-- If every thread issues only such commands, so does the run. -/
theorem Reach.entries_all {P : C → Prop} (hfresh : start.history = [])
    (hthreads : ∀ thread ∈ start.threads, thread.All P)
    (hspawn : ∀ command, ∀ thread ∈ sys.spawns command, thread.All P)
    (hreach : Reach sys guard start p) : ∀ entry ∈ p.history, P entry.command := by
  have hkept : (∀ entry ∈ p.history, P entry.command) ∧ ∀ thread ∈ p.threads, thread.All P := by
    refine Reach.forward (J := fun q => (∀ entry ∈ q.history, P entry.command) ∧
      ∀ thread ∈ q.threads, thread.All P) ⟨?_, hthreads⟩ ?_ ?_ hreach
    · rw [hfresh]
      exact fun _ hentry => absurd hentry List.not_mem_nil
    · rintro q q' i choice command next reply _ ⟨hentries, hall⟩ hcall _ _ _ hmoved hhistory _
      have hissues : (Prog.call command next).All P := hall _ (List.mem_of_getElem? hcall)
      rw [hmoved, hhistory]
      refine ⟨List.forall_mem_cons.mpr ⟨hissues.1, hentries⟩, fun thread hthread => ?_⟩
      rcases List.mem_append.mp hthread with hthread | hthread
      · rcases List.mem_or_eq_of_mem_set hthread with hthread | rfl
        · exact hall thread hthread
        · exact hissues.2 reply
      · exact hspawn command thread hthread
    · rintro q q' event _ hJ _ _ hmoved hhistory _
      rw [hmoved, hhistory]
      exact hJ
  exact hkept.1

/-- What the events and these commands keep is kept by a run of them. -/
theorem Reach.kept (Same : σ → σ → Prop) {P : C → Prop} (hrefl : ∀ s, Same s s)
    (htrans : ∀ {s s' s''}, Same s s' → Same s' s'' → Same s s'')
    (hcommand : ∀ command choice reply s s', P command →
      sys.exec command choice s = some (reply, s') → Same s s')
    (henv : ∀ event s s', sys.env event s = some s' → Same s s')
    (hentries : ∀ entry ∈ p.history, P entry.command) (hreach : Reach sys guard start p) :
    Same start.state p.state := by
  refine (Reach.kept_or Same (fun command => ¬P command) hrefl htrans ?_ henv
    hreach).resolve_right ?_
  · exact fun command choice reply s s' hP => hcommand command choice reply s s' (not_not.mp hP)
  · rintro ⟨entry, hentry, hnot⟩
    exact hnot (hentries entry hentry)

end Runs

end BrokeTurnkey.Interaction
