import Tessera.Lib.Transition

/-!
One re-entrant lock shared by processors, and structured code that takes it in
scopes. A thread may give its processor up at a park, which puts the whole
nesting depth down and picks it up again when the thread is next dispatched.
Code is checked by its shape alone: an access stands inside a scope, or in a
method that is only entered with the lock held.
-/
namespace ScopedLock
open Function List

/-- What a method does, as far as the lock can tell: which tables it touches,
    which methods it enters, where it parks and how far a scope of the lock reaches.
    Every branch and every number of loop turns is possible. -/
inductive Code (T M : Type) where
  | skip
  | access (t : T)
  | enter (m : M)
  | park
  | seq (p q : Code T M)
  | choice (p q : Code T M)
  | loop (p : Code T M)
  | scope (p : Code T M)
  deriving DecidableEq

/-- What is left on a thread's stack: code, the end of a scope, or the return
    from a method. -/
inductive Frame (T M : Type) where
  | code (p : Code T M)
  | drop
  | leave
  deriving DecidableEq

inductive Event (T M C I : Type) where
  | tick (c : C) (first : Bool)
  | hold (c : C)
  | drop (c : C)
  | access (c : C) (t : T)
  | park (c : C)
  | enter (c : C) (m : M)
  | leave (c : C) (outermost : Bool)
  | yield (c : C)
  | dispatch (c : C) (i : I)
  deriving DecidableEq

@[simp] def Event.on {T M C I : Type} : Event T M C I → C
  | .tick c _ | .hold c | .drop c | .access c _ | .park c | .enter c _ | .leave c _ | .yield c
  | .dispatch c _ => c

structure World (T M C I : Type) where
  owner : Option C
  depth : C → Nat
  current : C → Option I
  home : I → C
  stack : I → List (Frame T M)
  saved : I → Nat

variable {T M C I : Type}

@[simp] def drops : List (Frame T M) → Nat
  | [] => 0
  | .drop :: k => drops k + 1
  | _ :: k => drops k

@[simp] def leaves : List (Frame T M) → Nat
  | [] => 0
  | .leave :: k => leaves k + 1
  | _ :: k => leaves k

def unroll (first : Bool) : Code T M → List (Frame T M) → Option (List (Frame T M))
  | .skip, k => some k
  | .seq p q, k => some (.code p :: .code q :: k)
  | .choice p q, k => some (.code (if first then p else q) :: k)
  | .loop p, k => some (if first then .code p :: .code (.loop p) :: k else k)
  | _, _ => none

namespace World
variable [DecidableEq C] [DecidableEq I]

section
variable (s : World T M C I) (c : C)

def setStack (i : I) (k : List (Frame T M)) : World T M C I :=
  { s with stack := update s.stack i k }

def MayTake : Prop := s.depth c = 0 → s.owner = none

def take : World T M C I :=
  { s with
    owner := if s.depth c = 0 then some c else s.owner
    depth := update s.depth c (s.depth c + 1) }

def release : World T M C I :=
  { s with
    owner := if s.depth c - 1 = 0 then none else s.owner
    depth := update s.depth c (s.depth c - 1) }

/-- Puts the thread off its processor with the lock let go, however deep. -/
def suspend (i : I) : World T M C I :=
  { s with
    owner := if s.depth c = 0 then s.owner else none
    depth := update s.depth c 0
    current := update s.current c none
    saved := update s.saved i (s.depth c) }

/-- Puts a thread on its processor, at the depth it had when it left. -/
def resume (i : I) : World T M C I :=
  { s with
    owner := if s.saved i = 0 then s.owner else some c
    depth := update s.depth c (s.saved i)
    current := update s.current c (some i) }

/-- A hold that has to wait is a step not taken yet. A thread outside every
    method may also be taken off its processor between its own steps. -/
inductive Step (body : M → Code T M) (s : World T M C I) : Event T M C I → World T M C I → Prop where
  | tick {c i p k k' first} : s.current c = some i → s.stack i = .code p :: k →
      unroll first p k = some k' → Step body s (.tick c first) (s.setStack i k')
  | hold {c i p k} : s.current c = some i → s.stack i = .code (.scope p) :: k → s.MayTake c →
      Step body s (.hold c) ((s.take c).setStack i (.code p :: .drop :: k))
  | drop {c i k} : s.current c = some i → s.stack i = .drop :: k → Step body s (.drop c) ((s.release c).setStack i k)
  | access {c i t k} : s.current c = some i → s.stack i = .code (.access t) :: k →
      Step body s (.access c t) (s.setStack i k)
  | park {c i k} : s.current c = some i → s.stack i = .code .park :: k →
      Step body s (.park c) ((s.suspend c i).setStack i k)
  | enter {c i m k} : s.current c = some i → s.stack i = .code (.enter m) :: k →
      Step body s (.enter c m) (s.setStack i (.code (body m) :: .leave :: k))
  | leave {c i k} : s.current c = some i → s.stack i = .leave :: k →
      Step body s (.leave c (leaves k = 0)) (s.setStack i k)
  | yield {c i} : s.current c = some i → leaves (s.stack i) = 0 → s.depth c = 0 →
      Step body s (.yield c) (s.suspend c i)
  | dispatch {c i} : s.current c = none → s.home i = c → (s.saved i ≠ 0 → s.owner = none) →
      Step body s (.dispatch c i) (s.resume c i)

end

end World

/-- Every access of the code stands under the lock, given whether it is held at
    the start. -/
def guarded (held : Bool) : Code T M → Bool
  | .access _ => held
  | .seq p q | .choice p q => guarded held p && guarded held q
  | .loop p => guarded held p
  | .scope p => guarded true p
  | _ => true

def silent : Code T M → Bool
  | .access _ => false
  | .seq p q | .choice p q => silent p && silent q
  | .loop p | .scope p => silent p
  | _ => true

variable {p : Code T M} {k k' : List (Frame T M)} {first : Bool} {s : World T M C I}

theorem guarded_mono (ok : guarded held p = true) : guarded true p = true := by
  induction p with
  | access => rfl
  | seq p q ihp ihq | choice p q ihp ihq =>
    simp only [guarded, Bool.and_eq_true] at *
    exact ⟨ihp ok.1,ihq ok.2⟩
  | loop p ih => exact ih ok
  | scope => exact ok
  | skip | enter | park => rfl

theorem guarded_of_silent (ok : silent p = true) : guarded false p = true := by
  induction p with
  | access => cases ok
  | seq p q ihp ihq | choice p q ihp ihq =>
    simp only [silent, guarded, Bool.and_eq_true] at *
    exact ⟨ihp ok.1,ihq ok.2⟩
  | loop p ih => exact ih ok
  | scope p ih => exact guarded_mono (ih ok)
  | skip | enter | park => rfl

/-- The methods are written so that those which may be entered freely are one
    scope, and the others are right under a lock their caller holds. -/
structure Sheltered (body : M → Code T M) (needsLock : M → Bool) : Prop where
  whole : ∀ m, needsLock m = false → ∃ p, body m = .scope p ∧ guarded true p = true
  inner : ∀ m, needsLock m = true → guarded true (body m) = true

/-- A method that does not take the lock itself is entered by a processor that
    holds it. -/
def EntersHeld (needsLock : M → Bool) (s : World T M C I) : Event T M C I → Prop
  | .enter c m => needsLock m = true → 0 < s.depth c
  | _ => True

def Covered : List (Frame T M) → Prop
  | [] => True
  | .code p :: k => guarded (decide (0 < drops k)) p = true ∧ (leaves k = 0 → silent p = true) ∧ Covered k
  | _ :: k => Covered k

def Closing (k : List (Frame T M)) : Prop := ∃ rest, k = .leave :: rest ∧ leaves rest = 0

/-- Where a method is on the stack and no scope is open below, its one scope is
    about to open, about to close, or has closed. -/
def Tight : List (Frame T M) → Prop
  | [] => True
  | f :: k => Tight k ∧ (drops k = 0 → leaves (f :: k) ≠ 0 →
      f = .leave ∧ leaves k = 0 ∨ ((∃ p, f = .code (.scope p)) ∨ f = .drop) ∧ Closing k)

theorem Tight.tail (tight : Tight (f :: k)) : Tight k := tight.1

theorem Tight.inside (tight : Tight (.code p :: k)) (plain : ∀ q, p ≠ .scope q) (nested : leaves k ≠ 0) :
    drops k ≠ 0 := by
  intro none
  rcases tight.2 none nested with closing | opening
  · cases closing.1
  rcases opening.1 with scope | drop
  · obtain ⟨q,same⟩ := scope
    cases same
    exact plain q rfl
  · cases drop

theorem Tight.code (tight : Tight k) (room : leaves k ≠ 0 → drops k ≠ 0) : Tight (.code p :: k) :=
  ⟨tight,fun none nested => absurd none (room nested)⟩

section
variable (h : unroll first p k = some k')
include h

theorem unroll_drops : drops k' = drops k := by
  cases p <;> cases first <;> simp only [unroll, Option.some.injEq, reduceCtorEq] at h <;> subst h <;> rfl

theorem unroll_leaves : leaves k' = leaves k := by
  cases p <;> cases first <;> simp only [unroll, Option.some.injEq, reduceCtorEq] at h <;> subst h <;> rfl

theorem unroll_covered (ok : Covered (.code p :: k)) : Covered k' := by
  obtain ⟨guard,quiet,rest⟩ := ok
  cases p with cases h
  | skip => exact rest
  | seq =>
    simp only [guarded, silent, Bool.and_eq_true] at guard quiet
    exact ⟨guard.1,fun none => (quiet none).1,guard.2,fun none => (quiet none).2,rest⟩
  | choice =>
    simp only [guarded, silent, Bool.and_eq_true] at guard quiet
    cases first with
    | true => exact ⟨guard.1,fun none => (quiet none).1,rest⟩
    | false => exact ⟨guard.2,fun none => (quiet none).2,rest⟩
  | loop =>
    cases first with
    | true => exact ⟨guard,quiet,guard,quiet,rest⟩
    | false => exact rest

theorem unroll_tight (ok : Tight (.code p :: k)) : Tight k' := by
  have plain : ∀ q, p ≠ .scope q := by
    intro q same
    subst same
    cases h
  have room : leaves k ≠ 0 → drops k ≠ 0 := ok.inside plain
  cases p with cases h
  | skip => exact ok.tail
  | seq => exact (ok.tail.code room).code room
  | choice => exact ok.tail.code room
  | loop =>
    cases first with
    | true => exact (ok.tail.code room).code room
    | false => exact ok.tail

end

def Owned (owner : Option C) (depth : C → Nat) : Prop := ∀ c, 0 < depth c ↔ owner = some c

theorem Owned.set [DecidableEq C] {c : C} {n : Nat}
    (owned : Owned owner depth) (mine : owner = none ∨ owner = some c) (now : later = if n = 0 then none else some c) :
    Owned later (update depth c n) := by
  intro c'
  by_cases same : c' = c
  · subst same
    by_cases zero : n = 0 <;> simp [now, zero, Nat.pos_iff_ne_zero]
  have level : depth c' = 0 := by
    refine Nat.eq_zero_of_not_pos fun held => ?_
    rcases mine with free | own
    · cases free.symm.trans ((owned c').mp held)
    · exact same (Option.some.inj (((owned c').mp held).symm.trans own))
  by_cases zero : n = 0 <;> simp [now, update_of_ne same, level, Ne.symm same]

structure Sound (s : World T M C I) : Prop where
  owned : ∀ c, 0 < s.depth c ↔ s.owner = some c
  running : ∀ c i, s.current c = some i → s.home i = c ∧ s.depth c = drops (s.stack i)
  idle : ∀ c, s.current c = none → s.depth c = 0
  waiting : ∀ i, s.current (s.home i) ≠ some i → s.saved i = drops (s.stack i)
  covered : ∀ i, Covered (s.stack i)
  tight : ∀ i, Tight (s.stack i)

/-- Nobody runs, nobody holds the lock, and each thread has a program that
    touches the tables only through methods. -/
structure Fresh (s : World T M C I) : Prop where
  free : s.owner = none
  level : ∀ c, s.depth c = 0
  vacant : ∀ c, s.current c = none
  unsaved : ∀ i, s.saved i = 0
  client : ∀ i, ∃ p, s.stack i = [.code p] ∧ silent p = true

theorem Fresh.sound (fresh : Fresh s) : Sound s where
  owned c := by simp [fresh.free, fresh.level c]
  running c i here := by simp [fresh.vacant c] at here
  idle c _ := fresh.level c
  waiting i _ := by
    obtain ⟨p,top,_⟩ := fresh.client i
    rw [fresh.unsaved i, top]
    rfl
  covered i := by
    obtain ⟨p,top,quiet⟩ := fresh.client i
    rw [top]
    exact ⟨guarded_of_silent quiet,fun _ => quiet,trivial⟩
  tight i := by
    obtain ⟨p,top,_⟩ := fresh.client i
    rw [top]
    exact ⟨trivial,fun _ nested => absurd rfl nested⟩

theorem Sound.top (sound : Sound s) (top : s.stack i = k) : Covered k ∧ Tight k :=
  top ▸ ⟨sound.covered i,sound.tight i⟩

theorem Sound.level (sound : Sound s) (here : s.current c = some i) (top : s.stack i = k) : s.depth c = drops k :=
  top ▸ (sound.running c i here).2

section
variable [DecidableEq C] [DecidableEq I] {s : World T M C I} {c : C} {i : I}
variable {k : List (Frame T M)} {e : Event T M C I} {t u : World T M C I}
  {history mid : List (Event T M C I)}

section
variable (sound : Sound s)
include sound

section
variable (here : s.current c = some i)
include here

theorem Sound.change (owned : Owned owner (update s.depth c (drops k)))
    (covered : Covered k) (tight : Tight k) : Sound { s with
      owner, depth := update s.depth c (drops k), stack := update s.stack i k } where
  owned := owned
  running c' j at' := by
    obtain ⟨home,depth⟩ := sound.running c' j at'
    refine ⟨home,?_⟩
    by_cases same : j = i
    · subst same
      have : c' = c := home.symm.trans (sound.running c j here).1
      subst this
      simp
    have apart : c' ≠ c := by
      intro both
      subst both
      exact same (Option.some.inj (at'.symm.trans here))
    simpa [update_of_ne same, update_of_ne apart] using depth
  idle c' none := by
    have apart : c' ≠ c := by
      intro both
      subst both
      rw [here] at none
      cases none
    simpa [update_of_ne apart] using sound.idle c' none
  waiting j off := by
    have apart : j ≠ i := by
      intro same
      subst same
      exact off ((sound.running c j here).1.symm ▸ here)
    simpa [update_of_ne apart] using sound.waiting j off
  covered j := by
    by_cases same : j = i
    · subst same
      simpa using covered
    · simpa [update_of_ne same] using sound.covered j
  tight j := by
    by_cases same : j = i
    · subst same
      simpa using tight
    · simpa [update_of_ne same] using sound.tight j

theorem Sound.setStack (same : drops k = drops (s.stack i))
    (covered : Covered k) (tight : Tight k) : Sound (s.setStack i k) := by
  have depth : drops k = s.depth c := same.trans (sound.running c i here).2.symm
  have level : update s.depth c (drops k) = s.depth := by rw [depth, update_eq_self]
  have changed := sound.change here (level ▸ sound.owned) covered tight
  rw [level] at changed
  exact changed

theorem Sound.hold {p : Code T M} (top : s.stack i = .code (.scope p) :: k) (free : s.MayTake c) :
    Sound ((s.take c).setStack i (.code p :: .drop :: k)) := by
  have depth : s.depth c = drops k := (sound.level here top :)
  obtain ⟨ok,tight⟩ := sound.top top
  have owned : Owned (if s.depth c = 0 then some c else s.owner) (update s.depth c (s.depth c + 1)) := by
    by_cases zero : s.depth c = 0
    · exact Owned.set sound.owned (.inl (free zero)) (if_pos zero)
    · have mine := (sound.owned c).mp (Nat.pos_of_ne_zero zero)
      exact Owned.set sound.owned (.inr mine) ((if_neg zero).trans mine)
  have covered : Covered (.code p :: .drop :: k) :=
    ⟨ok.1,fun none => ok.2.1 none,ok.2.2⟩
  have tighter : Tight (.code p :: .drop :: k) := by
    refine ⟨⟨tight.tail,fun none nested => ?_⟩,fun none => absurd none (Nat.succ_ne_zero _)⟩
    rcases tight.2 none nested with closing | opening
    · cases closing.1
    · exact .inr ⟨Or.inr rfl,opening.2⟩
  have deeper : s.depth c + 1 = drops (.code p :: .drop :: k) := congrArg (· + 1) depth
  rw [deeper] at owned
  have changed := sound.change here owned covered tighter
  rw [← deeper] at changed
  exact changed

theorem Sound.drop (top : s.stack i = .drop :: k) : Sound ((s.release c).setStack i k) := by
  have level : s.depth c = drops k + 1 := sound.level here top
  have depth : s.depth c - 1 = drops k := by omega
  have held : 0 < s.depth c := by omega
  obtain ⟨ok,tight⟩ := sound.top top
  have mine := (sound.owned c).mp held
  have owned : Owned (if s.depth c - 1 = 0 then none else s.owner) (update s.depth c (drops k)) :=
    Owned.set sound.owned (.inr mine) (by rw [depth, mine])
  have changed := sound.change here owned ok tight.tail
  rw [← depth] at changed
  exact changed

theorem Sound.suspend : Sound (s.suspend c i) where
  owned := by
    by_cases zero : s.depth c = 0
    · have level : update s.depth c 0 = s.depth := by rw [← zero, update_eq_self]
      simpa [World.suspend, zero, level] using sound.owned
    · exact Owned.set sound.owned (.inr ((sound.owned c).mp (Nat.pos_of_ne_zero zero))) (if_neg zero)
  running c' j at' := by
    by_cases same : c' = c
    · subst same
      simp [World.suspend] at at'
    · simp only [World.suspend, update_of_ne same] at at' ⊢
      exact sound.running c' j at'
  idle c' none := by
    by_cases same : c' = c
    · subst same
      simp [World.suspend]
    · simp only [World.suspend, update_of_ne same] at none ⊢
      exact sound.idle c' none
  waiting j off := by
    by_cases same : j = i
    · subst same
      simpa [World.suspend] using (sound.running c j here).2
    simp only [World.suspend, update_of_ne same] at off ⊢
    apply sound.waiting j
    intro at'
    by_cases home : s.home j = c
    · rw [home, here] at at'
      exact same (Option.some.inj at').symm
    · exact off (by simpa [update_of_ne home] using at')
  covered := sound.covered
  tight := sound.tight

end

end

omit [DecidableEq I] in
theorem Sound.resume (sound : Sound s) (vacant : s.current c = none) (home : s.home i = c)
    (free : s.saved i ≠ 0 → s.owner = none) : Sound (s.resume c i) where
  owned := by
    by_cases zero : s.saved i = 0
    · have level : update s.depth c 0 = s.depth := by rw [← sound.idle c vacant, update_eq_self]
      simpa [World.resume, zero, level] using sound.owned
    · exact Owned.set sound.owned (.inl (free zero)) (by simp [World.resume, zero])
  running c' j at' := by
    by_cases same : c' = c
    · subst same
      simp only [World.resume, update_self, Option.some.injEq] at at'
      subst at'
      refine ⟨home,?_⟩
      have off : s.current (s.home i) ≠ some i := by simp [home, vacant]
      simpa [World.resume] using sound.waiting i off
    · simp only [World.resume, update_of_ne same] at at' ⊢
      exact sound.running c' j at'
  idle c' idle := by
    by_cases same : c' = c
    · subst same
      simp [World.resume] at idle
    · simp only [World.resume, update_of_ne same] at idle ⊢
      exact sound.idle c' idle
  waiting j off := by
    apply sound.waiting j
    intro at'
    apply off
    have apart : s.home j ≠ c := by
      intro same
      rw [same, vacant] at at'
      cases at'
    simpa [World.resume, update_of_ne apart] using at'
  covered := sound.covered
  tight := sound.tight

variable {body : M → Code T M} {needsLock : M → Bool}

theorem Sound.enter (sound : Sound s) (sheltered : Sheltered body needsLock) (here : s.current c = some i)
    (top : s.stack i = .code (.enter m) :: k) (allowed : needsLock m = true → 0 < s.depth c) :
    Sound (s.setStack i (.code (body m) :: .leave :: k)) := by
  have depth : s.depth c = drops k := (sound.level here top :)
  obtain ⟨ok,tight⟩ := sound.top top
  have room : leaves k ≠ 0 → drops k ≠ 0 := tight.inside (fun q => nofun)
  have entered : Tight (.leave :: k) := by
    refine ⟨tight.tail,fun none _ => Or.inl ⟨rfl,?_⟩⟩
    by_contra nested
    exact room nested none
  apply sound.setStack here
  · rw [top]
    rfl
  · refine ⟨?_,fun outside => absurd outside (Nat.succ_ne_zero _),ok.2.2⟩
    cases needs : needsLock m with
    | true =>
      have held : 0 < drops k := depth ▸ allowed needs
      simpa [held] using sheltered.inner m needs
    | false =>
      obtain ⟨p,same,inner⟩ := sheltered.whole m needs
      rw [same]
      exact inner
  · refine ⟨entered,fun none _ => Or.inr ?_⟩
    have outside : leaves k = 0 := by
      by_contra nested
      exact room nested none
    cases needs : needsLock m with
    | true =>
      have held := allowed needs
      rw [depth] at held
      exact absurd none (Nat.pos_iff_ne_zero.mp held)
    | false =>
      obtain ⟨p,same,_⟩ := sheltered.whole m needs
      exact ⟨Or.inl ⟨p,by rw [same]⟩,k,rfl,outside⟩

theorem Sound.step (sound : Sound s) (sheltered : Sheltered body needsLock)
    (allowed : EntersHeld needsLock s e) (step : World.Step body s e t) : Sound t := by
  cases step with
  | @tick c i p k k' first here top unrolled =>
    obtain ⟨ok,tight⟩ := sound.top top
    refine sound.setStack here ?_ (unroll_covered unrolled ok) (unroll_tight unrolled tight)
    rw [unroll_drops unrolled, top]
    rfl
  | hold here top free => exact sound.hold here top free
  | drop here top => exact sound.drop here top
  | @access c i t k here top =>
    obtain ⟨ok,tight⟩ := sound.top top
    exact sound.setStack here (by rw [top]; rfl) ok.2.2 tight.tail
  | @park c i k here top =>
    obtain ⟨ok,tight⟩ := sound.top top
    exact (sound.setStack here (k := k) (by rw [top]; rfl) ok.2.2 tight.tail).suspend here
  | enter here top => exact sound.enter sheltered here top allowed
  | @leave c i k here top =>
    obtain ⟨ok,tight⟩ := sound.top top
    exact sound.setStack here (by rw [top]; rfl) ok tight.tail
  | yield here => exact sound.suspend here
  | dispatch vacant home free => exact sound.resume vacant home free

theorem Sound.access (sound : Sound s) {t : T} (step : World.Step body s (.access c t) u) :
    s.owner = some c ∧ ∃ i, s.current c = some i ∧ leaves (s.stack i) ≠ 0 := by
  cases step with
  | @access _ i _ k here top =>
    have ok := sound.covered i
    rw [top] at ok
    have held : 0 < drops k := by simpa [guarded] using ok.1
    have depth : s.depth c = drops k := (sound.level here top :)
    refine ⟨(sound.owned c).mp (depth ▸ held),i,here,?_⟩
    rw [top]
    intro outside
    have quiet := ok.2.1 outside
    cases quiet

def Inside (c : C) (s : World T M C I) : Prop :=
  0 < s.depth c ∧ ∃ i, s.current c = some i ∧ leaves (s.stack i) ≠ 0

def Leaving (c : C) (s : World T M C I) : Prop :=
  ∃ i k, s.current c = some i ∧ s.stack i = .leave :: k ∧ leaves k = 0

theorem Sound.elsewhere (sound : Sound s) (step : World.Step body s e t) (apart : e.on ≠ c)
    (here : s.current c = some i) : t.current c = some i ∧ t.stack i = s.stack i ∧ t.depth c = s.depth c := by
  have other : ∀ {c' j}, c' ≠ c → s.current c' = some j → i ≠ j := by
    intro c' j different there same
    subst same
    exact different ((sound.running c' i there).1.symm.trans (sound.running c i here).1)
  cases step with
  | tick there | access there | enter there | leave there =>
    simpa [World.setStack, update_of_ne (other apart there)] using here
  | hold there | drop there | park there =>
    dsimp only [Event.on] at apart
    simpa [World.setStack, World.take, World.release, World.suspend, update_of_ne (other apart there),
      update_of_ne (Ne.symm apart)] using here
  | yield | dispatch =>
    dsimp only [Event.on] at apart
    simpa [World.suspend, World.resume, update_of_ne (Ne.symm apart)] using here

theorem Sound.inside_step (sound : Sound s) (inside : Inside c s) (step : World.Step body s e t)
    (unparked : e ≠ .park c) (unfinished : e ≠ .leave c true) : Inside c t ∨ Leaving c t := by
  obtain ⟨held,i,here,nested⟩ := inside
  by_cases apart : e.on ≠ c
  · obtain ⟨current,stack,depth⟩ := sound.elsewhere step apart here
    exact .inl ⟨depth ▸ held,i,current,stack ▸ nested⟩
  rw [not_not] at apart
  have mine : ∀ {j}, s.current e.on = some j → j = i ∧ e.on = c := by
    intro j there
    rw [apart] at there
    exact ⟨Option.some.inj (there.symm.trans here),apart⟩
  cases step with
  | @tick c' j p k k' first there top unrolled =>
    obtain ⟨rfl,rfl⟩ := mine there
    refine .inl ⟨held,j,here,?_⟩
    rw [top] at nested
    simpa [World.setStack, unroll_leaves unrolled] using nested
  | @hold c' j p k there top =>
    obtain ⟨rfl,rfl⟩ := mine there
    refine .inl ⟨by simp [World.setStack, World.take],j,here,?_⟩
    rw [top] at nested
    simpa [World.setStack] using nested
  | @drop c' j k there top =>
    obtain ⟨rfl,rfl⟩ := mine there
    have tight := (sound.top top).2
    have depth := sound.level there top
    rw [top] at nested
    -- the scope that closes is the method's own exactly when none is open below it
    by_cases outer : drops k = 0
    · rcases tight.2 outer nested with closing | opening
      · cases closing.1
      · obtain ⟨rest,same,last⟩ := opening.2
        exact .inr ⟨j,rest,here,by simp [World.setStack, same],last⟩
    refine .inl ⟨?_,j,here,by simpa [World.setStack] using nested⟩
    have : 0 < s.depth c' - 1 := by
      rw [depth]
      exact Nat.pos_of_ne_zero outer
    simpa [World.setStack, World.release] using this
  | @access c' j t k there top =>
    obtain ⟨rfl,rfl⟩ := mine there
    refine .inl ⟨held,j,here,?_⟩
    rw [top] at nested
    simpa [World.setStack] using nested
  | @park c' j k there top =>
    obtain ⟨rfl,rfl⟩ := mine there
    exact absurd rfl unparked
  | @enter c' j m k there top =>
    obtain ⟨rfl,rfl⟩ := mine there
    exact .inl ⟨held,j,here,by simp [World.setStack]⟩
  | @leave c' j k there top =>
    obtain ⟨rfl,rfl⟩ := mine there
    refine .inl ⟨held,j,here,?_⟩
    intro outside
    apply unfinished
    simp only [World.setStack, update_self] at outside
    simp [outside]
  | @yield c' j there _ level =>
    obtain ⟨rfl,rfl⟩ := mine there
    omega
  | @dispatch c' j vacant =>
    obtain rfl := apart
    rw [show s.current c' = _ from here] at vacant
    cases vacant

theorem Sound.leaving_step (sound : Sound s) (leaving : Leaving c s) (step : World.Step body s e t)
    (unfinished : e ≠ .leave c true) : Leaving c t ∧ e.on ≠ c := by
  obtain ⟨i,k,here,top,last⟩ := leaving
  by_cases apart : e.on ≠ c
  · obtain ⟨current,stack,_⟩ := sound.elsewhere step apart here
    exact ⟨⟨i,k,current,stack.trans top,last⟩,apart⟩
  rw [not_not] at apart
  have mine : ∀ {j}, s.current e.on = some j → s.stack j = .leave :: k := by
    intro j there
    rw [apart] at there
    rw [Option.some.inj (there.symm.trans here), top]
  cases step with
  | tick there above | hold there above | drop there above | access there above | park there above
  | enter there above =>
    rw [mine there] at above
    cases above
  | leave there above =>
    obtain rfl := apart
    rw [mine there] at above
    cases above
    exact absurd (by simp [last]) unfinished
  | @yield c' j there outside =>
    rw [mine there] at outside
    cases outside
  | @dispatch c' j vacant =>
    obtain rfl := apart
    rw [show s.current c' = _ from here] at vacant
    cases vacant

open Transition

def Runs (body : M → Code T M) (needsLock : M → Bool) : World T M C I → List (Event T M C I) → World T M C I → Prop :=
  Disciplined (fun _ => EntersHeld needsLock) (World.Step body)

theorem Runs.onward (run : Runs body needsLock s history t) (e : Event T M C I) (step : World.Step body t e u)
    (allowed : EntersHeld needsLock t e) : Runs body needsLock s (history ++ [e]) u :=
  Disciplined.more run allowed step

theorem Sound.run (sound : Sound s) (sheltered : Sheltered body needsLock)
    (run : Runs body needsLock s history t) : Sound t := by
  refine Disciplined.invariant (fun _ => Sound) ?_ sound run
  intro _ s e t sound allowed step
  exact sound.step sheltered allowed step

/-- A stretch in which a processor neither parks nor returns from its outermost
    method leaves it inside, with no access from elsewhere, or at its return. -/
theorem Sound.stretch (sound : Sound s) (sheltered : Sheltered body needsLock) (inside : Inside c s)
    (run : Runs body needsLock s mid t) (unparked : .park c ∉ mid) (unfinished : .leave c true ∉ mid) :
    (Inside c t ∧ ∀ c' x, c' ≠ c → .access c' x ∉ mid) ∨ Leaving c t := by
  induction run with
  | start => exact .inl ⟨inside,fun _ _ _ => not_mem_nil⟩
  | @more mid e u v before allowed step ih =>
    simp only [mem_append, mem_singleton, not_or] at unparked unfinished
    have between := sound.run sheltered before
    rcases ih unparked.1 unfinished.1 with still | leaving
    · obtain ⟨inside,alone⟩ := still
      rcases between.inside_step inside step (Ne.symm unparked.2) (Ne.symm unfinished.2) with onward | leaving
      · refine .inl ⟨onward,fun c' x apart mem => ?_⟩
        rcases mem_append.mp mem with old | this
        · exact alone c' x apart old
        rw [mem_singleton] at this
        subst this
        have theirs := (between.access step).1
        rw [(between.owned c).mp inside.1] at theirs
        exact apart (Option.some.inj theirs).symm
      · exact .inr leaving
    · exact .inr (between.leaving_step leaving step (Ne.symm unfinished.2)).1

/-- Between two accesses that one method makes without parking, no other
    processor makes one. -/
theorem Sound.exclusive (sound : Sound s) (sheltered : Sheltered body needsLock)
    (run : Runs body needsLock s (before ++ [.access c x] ++ mid ++ [.access c y]) t)
    (unparked : .park c ∉ mid) (unfinished : .leave c true ∉ mid) : ∀ c' z, c' ≠ c → .access c' z ∉ mid := by
  obtain ⟨v,toLast,last⟩ := Disciplined.split run
  obtain ⟨u,toFirst,stretch⟩ := Disciplined.split toLast
  obtain ⟨a,toStart,first⟩ := Disciplined.split toFirst
  have atStart := sound.run sheltered toStart
  have atFirst := sound.run sheltered toFirst
  have atLast := sound.run sheltered toLast
  have begun : World.Step body a (.access c x) u := Disciplined.single first
  have ended : World.Step body v (.access c y) t := Disciplined.single last
  have inside : Inside c u := by
    obtain ⟨owner,i,here,nested⟩ := atStart.access begun
    have held := (atStart.owned c).mpr owner
    cases begun with
    | @access _ j _ k there top =>
      obtain rfl := Option.some.inj (there.symm.trans here)
      rw [top] at nested
      exact ⟨held,j,there,by simpa [World.setStack] using nested⟩
  rcases atFirst.stretch sheltered inside stretch unparked unfinished with still | leaving
  · exact still.2
  · exact absurd rfl (atLast.leaving_step leaving ended nofun).2

end
end ScopedLock
