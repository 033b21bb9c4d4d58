import Rxon.Assoc

/-! # Memoizing programs

Programs that look up and store entries of a shared bounded dictionary, as trees of
their accesses.  A tree says nothing about who else uses the dictionary: run alone it
is a function of it (`run`), and a step at a time (`step`) it can be interleaved with
others.

`Ensures S P` is the triple of this language.  Of the dictionary it assumes and
guarantees only that its entries satisfy `S`, which no other program that does the same
can break, so what is proved of a program alone holds of it among others. -/

namespace Memo

/-! ## A bounded dictionary -/

/-- A dictionary in insertion order that holds no more than `bound` entries. -/
structure Cache (κ ν : Type) (bound : Nat) where
  entries : List (κ × ν)
  unique : Assoc.Unique entries
  length_le : entries.length ≤ bound

namespace Cache
variable {κ ν : Type} {bound : Nat} [DecidableEq κ]

def empty : Cache κ ν bound := ⟨[], List.nodup_nil, Nat.zero_le _⟩

def get (c : Cache κ ν bound) (key : κ) : Option ν := c.entries.lookup key

/-- The entries once the oldest has made room, if there is none left. -/
def evicted (c : Cache κ ν bound) : List (κ × ν) :=
  if bound ≤ c.entries.length then c.entries.tail else c.entries

omit [DecidableEq κ] in
theorem evicted_sublist (c : Cache κ ν bound) : c.evicted.Sublist c.entries := by
  unfold evicted
  split
  · exact List.tail_sublist _
  · exact List.Sublist.refl _

omit [DecidableEq κ] in
theorem evicted_length [Fact (0 < bound)] (c : Cache κ ν bound) : c.evicted.length < bound := by
  have hpos : 0 < bound := Fact.out
  have hle := c.length_le
  unfold evicted
  split
  · rw [List.length_tail]
    omega
  · omega

omit [DecidableEq κ] in
/-- A new key, put last, is the only one of its kind. -/
theorem unique_evicted_append {c : Cache κ ν bound} {key : κ} (value : ν)
    (h : key ∉ Assoc.keys c.entries) : Assoc.Unique (c.evicted ++ [(key, value)]) := by
  have hkey : key ∉ Assoc.keys c.evicted :=
    fun hmem => h ((c.evicted_sublist.map Prod.fst).subset hmem)
  have hunique := c.unique.sublist c.evicted_sublist
  rw [Assoc.Unique, Assoc.keys_append]
  refine List.Nodup.append hunique (List.nodup_singleton _) fun k hmem hk => ?_
  rw [List.mem_singleton.mp hk] at hmem
  exact hkey hmem

omit [DecidableEq κ] in
theorem length_evicted_append [Fact (0 < bound)] (c : Cache κ ν bound) (e : κ × ν) :
    (c.evicted ++ [e]).length ≤ bound := by
  have := c.evicted_length
  rw [List.length_append, List.length_singleton]
  omega

/-- Store an entry, unless the key has one: the oldest makes room, and the new one comes
last. -/
def insert [Fact (0 < bound)] (c : Cache κ ν bound) (key : κ) (value : ν) : Cache κ ν bound :=
  if h : key ∈ Assoc.keys c.entries then c
  else ⟨c.evicted ++ [(key, value)], unique_evicted_append value h, c.length_evicted_append _⟩

/-- Look up, and make and store what is missing; what cannot be made is not stored. -/
def fetch [Fact (0 < bound)] {ε : Type} (c : Cache κ ν bound) (key : κ) (make : Except ε ν) :
    Option ν × Cache κ ν bound :=
  match c.get key with
  | some value => (some value, c)
  | none =>
    match make with
    | .ok value => (some value, c.insert key value)
    | .error _ => (none, c)

/-- Every entry satisfies `S`. -/
def All (S : κ → ν → Prop) (c : Cache κ ν bound) : Prop := ∀ e ∈ c.entries, S e.1 e.2

variable {S : κ → ν → Prop} {c : Cache κ ν bound} {key : κ} {value : ν}

omit [DecidableEq κ] in
theorem all_empty : All S (empty : Cache κ ν bound) := by
  intro e he
  cases he

theorem All.get (h : c.All S) (hget : c.get key = some value) : S key value :=
  h _ (Assoc.mem_of_lookup hget)

theorem All.insert [Fact (0 < bound)] (h : c.All S) (hnew : S key value) :
    (c.insert key value).All S := by
  unfold Cache.insert
  split
  · exact h
  · intro e he
    rcases List.mem_append.mp he with he | he
    · exact h e (c.evicted_sublist.subset he)
    · rw [List.mem_singleton.mp he]
      exact hnew

/-- What is fetched satisfies `S`, found or made, and so does all that is kept. -/
theorem All.fetch [Fact (0 < bound)] {ε : Type} {make : Except ε ν} (h : c.All S)
    (hmake : ∀ value, make = .ok value → S key value) :
    (∀ value, (c.fetch key make).1 = some value → S key value) ∧ (c.fetch key make).2.All S := by
  unfold Cache.fetch
  cases hget : c.get key with
  | some found =>
    refine ⟨fun value heq => ?_, h⟩
    cases heq
    exact h.get hget
  | none =>
    cases make with
    | ok made =>
      refine ⟨fun value heq => ?_, h.insert (hmake made rfl)⟩
      cases heq
      exact hmake made rfl
    | error e =>
      refine ⟨fun value heq => ?_, h⟩
      cases heq

theorem exists_fetch [Fact (0 < bound)] {ε : Type} {make : Except ε ν} (h : make = .ok value) :
    ∃ found, (c.fetch key make).1 = some found := by
  subst h
  unfold fetch
  cases c.get key with
  | some found => exact ⟨found, rfl⟩
  | none => exact ⟨value, rfl⟩

/-- What is fetched is what is kept, or else what is made. -/
theorem fetch_fst [Fact (0 < bound)] {ε : Type} {make : Except ε ν} :
    (c.fetch key make).1 = (c.get key).or make.toOption := by
  unfold fetch
  cases c.get key with
  | some found => rfl
  | none => cases make <;> rfl

/-- Nothing is stored where there is nothing to fetch. -/
theorem fetch_snd [Fact (0 < bound)] {ε : Type} {make : Except ε ν}
    (h : (c.fetch key make).1 = none) : (c.fetch key make).2 = c := by
  unfold fetch at h ⊢
  cases hget : c.get key with
  | some found => rfl
  | none =>
    rw [hget] at h
    cases make with
    | ok made => cases h
    | error e => rfl

theorem fetch_of_get [Fact (0 < bound)] {ε : Type} {make : Except ε ν}
    (h : c.get key = some value) : c.fetch key make = (some value, c) := by
  unfold fetch
  rw [h]

theorem fetch_error [Fact (0 < bound)] {ε : Type} {e : ε} :
    c.fetch key (.error e : Except ε ν) = (c.get key, c) := by
  unfold fetch
  cases c.get key <;> rfl

end Cache

/-! ## Programs -/

/-- A program over a dictionary: it has a result, or looks a key up, or stores an
entry. -/
inductive Prog (κ ν α : Type) where
  | pure (a : α)
  | get (key : κ) (next : Option ν → Prog κ ν α)
  | store (key : κ) (value : ν) (next : Prog κ ν α)

namespace Prog
variable {κ ν α β : Type}

def bind : Prog κ ν α → (α → Prog κ ν β) → Prog κ ν β
  | .pure a, f => f a
  | .get key next, f => .get key fun r => (next r).bind f
  | .store key value next, f => .store key value (next.bind f)

instance instMonad : Monad (Prog κ ν) where
  pure := Prog.pure
  bind := Prog.bind

def lookup (key : κ) : Prog κ ν (Option ν) := .get key .pure

def save (key : κ) (value : ν) : Prog κ ν Unit := .store key value (.pure ())

section
variable {bound : Nat} [DecidableEq κ] [Fact (0 < bound)]

/-- The next access; a program that has a result makes none. -/
def step : Prog κ ν α → Cache κ ν bound → Option (Prog κ ν α × Cache κ ν bound)
  | .pure _, _ => none
  | .get key next, c => some (next (c.get key), c)
  | .store key value next, c => some (next, c.insert key value)

/-- The result of a program that runs alone, and the dictionary it leaves. -/
def run : Prog κ ν α → Cache κ ν bound → α × Cache κ ν bound
  | .pure a, c => (a, c)
  | .get key next, c => (next (c.get key)).run c
  | .store key value next, c => next.run (c.insert key value)

end

/-- The result of a program that never finds anything. -/
def fresh : Prog κ ν α → α
  | .pure a => a
  | .get _ next => (next none).fresh
  | .store _ _ next => next.fresh

/-! ## Triples -/

/-- If what is found satisfies `S`, then so does what is stored, and the result
satisfies `P`. -/
def Ensures (S : κ → ν → Prop) (P : α → Prop) : Prog κ ν α → Prop
  | .pure a => P a
  | .get key next =>
    (next none).Ensures S P ∧ ∀ value, S key value → (next (some value)).Ensures S P
  | .store key value next => S key value ∧ next.Ensures S P

variable {S : κ → ν → Prop} {P : α → Prop} {Q : β → Prop} {p : Prog κ ν α}
  {f : α → Prog κ ν β}

theorem ensures_bind (hp : p.Ensures S P) (hf : ∀ a, P a → (f a).Ensures S Q) :
    (p >>= f).Ensures S Q := by
  change (p.bind f).Ensures S Q
  induction p with
  | pure a => exact hf a hp
  | get key next ih => exact ⟨ih none hp.1, fun value hvalue => ih _ (hp.2 value hvalue)⟩
  | store key value next ih => exact ⟨hp.1, ih hp.2⟩

theorem Ensures.mono {P' : α → Prop} (hp : p.Ensures S P) (h : ∀ a, P a → P' a) :
    p.Ensures S P' := by
  induction p with
  | pure a => exact h a hp
  | get key next ih => exact ⟨ih none hp.1, fun value hvalue => ih _ (hp.2 value hvalue)⟩
  | store key value next ih => exact ⟨hp.1, ih hp.2⟩

/-- A triple that asks nothing of the entries can be added to one that does. -/
theorem Ensures.and {P' : α → Prop} (hp : p.Ensures S P)
    (hp' : p.Ensures (fun _ _ => True) P') : p.Ensures S fun a => P a ∧ P' a := by
  induction p with
  | pure a => exact ⟨hp, hp'⟩
  | get key next ih =>
    exact ⟨ih none hp.1 hp'.1, fun value hvalue => ih _ (hp.2 value hvalue) (hp'.2 value trivial)⟩
  | store key value next ih => exact ⟨hp.1, ih hp.2 hp'.2⟩

theorem ensures_lookup {key : κ} {P : Option ν → Prop} (hnone : P none)
    (hsome : ∀ value, S key value → P (some value)) :
    (lookup key : Prog κ ν (Option ν)).Ensures S P :=
  ⟨hnone, hsome⟩

theorem ensures_save {key : κ} {value : ν} (h : S key value) :
    (save key value : Prog κ ν Unit).Ensures S fun _ => True :=
  ⟨h, trivial⟩

section
variable {bound : Nat} [DecidableEq κ] [Fact (0 < bound)] {c : Cache κ ν bound}

/-- **One access keeps the triple and the dictionary.** -/
theorem Ensures.step {p' : Prog κ ν α} {c' : Cache κ ν bound} (hp : p.Ensures S P) (hc : c.All S)
    (h : p.step c = some (p', c')) : p'.Ensures S P ∧ c'.All S := by
  cases p with
  | pure a => cases h
  | get key next =>
    cases h
    refine ⟨?_, hc⟩
    cases hget : c.get key with
    | none => exact hp.1
    | some value => exact hp.2 value (hc.get hget)
  | store key value next =>
    cases h
    exact ⟨hp.2, hc.insert hp.1⟩

/-- **A program that runs alone does what its triple says.** -/
theorem Ensures.run (hp : p.Ensures S P) (hc : c.All S) :
    P (p.run c).1 ∧ (p.run c).2.All S := by
  induction p generalizing c with
  | pure a => exact ⟨hp, hc⟩
  | get key next ih =>
    apply ih _ _ hc
    cases hget : c.get key with
    | none => exact hp.1
    | some value => exact hp.2 value (hc.get hget)
  | store key value next ih => exact ih hp.2 (hc.insert hp.1)

end

theorem Ensures.fresh (hp : p.Ensures S P) : P p.fresh := by
  induction p with
  | pure a => exact hp
  | get key next ih => exact ih none hp.1
  | store key value next ih => exact ih hp.2

end Prog

/-! ## Programs that can fail -/

/-- A program that has a result or raises. -/
abbrev ProgE (ε κ ν α : Type) := ExceptT ε (Prog κ ν) α

namespace ProgE
variable {ε κ ν α β : Type}

/-- `f` for every element, in order. -/
def forEach (f : α → ProgE ε κ ν β) : List α → ProgE ε κ ν (List β)
  | [] => pure []
  | x :: xs => do
    let y ← f x
    return y :: (← forEach f xs)

/-- The triple of what a program has as its result, if it has one. -/
def Yields (S : κ → ν → Prop) (R : α → Prop) (p : ProgE ε κ ν α) : Prop :=
  p.run.Ensures S fun r => ∀ a, r = .ok a → R a

/-- The triple of a program that does not raise, and of its result. -/
def Returns (S : κ → ν → Prop) (R : α → Prop) (p : ProgE ε κ ν α) : Prop :=
  p.run.Ensures S fun r => ∃ a, r = .ok a ∧ R a

variable {S : κ → ν → Prop} {R : α → Prop} {T : β → Prop} {p : ProgE ε κ ν α}
  {f : α → ProgE ε κ ν β} {handle : ε → ProgE ε κ ν α} {a : α} {e : ε}

theorem yields_pure (h : R a) : (pure a : ProgE ε κ ν α).Yields S R := by
  rintro b hb
  cases hb
  exact h

theorem yields_throw : (throw e : ProgE ε κ ν α).Yields S R := by
  rintro b hb
  cases hb

theorem Yields.mono {R' : α → Prop} (hp : p.Yields S R) (h : ∀ a, R a → R' a) :
    p.Yields S R' :=
  Prog.Ensures.mono hp fun _ hr b hb => h b (hr b hb)

theorem yields_bind (hp : p.Yields S R) (hf : ∀ a, R a → (f a).Yields S T) :
    (p >>= f).Yields S T := by
  refine Prog.ensures_bind hp fun r hr => ?_
  cases r with
  | ok a => exact hf a (hr a rfl)
  | error e => exact yields_throw

theorem yields_lookup {key : κ} {R : Option ν → Prop} (hnone : R none)
    (hsome : ∀ value, S key value → R (some value)) :
    (liftM (Prog.lookup key : Prog κ ν (Option ν)) : ProgE ε κ ν (Option ν)).Yields S R :=
  Prog.ensures_bind (Prog.ensures_lookup hnone hsome) fun _ hr => yields_pure hr

theorem yields_save {key : κ} {value : ν} (h : S key value) :
    (liftM (Prog.save key value : Prog κ ν Unit) : ProgE ε κ ν Unit).Yields S fun _ => True :=
  Prog.ensures_bind (Prog.ensures_save h) fun _ _ => yields_pure trivial

/-- The results of a handler count too. -/
theorem yields_tryCatch (hp : p.Yields S R) (hhandle : ∀ e, (handle e).Yields S R) :
    (tryCatch p handle : ProgE ε κ ν α).Yields S R := by
  refine Prog.ensures_bind hp fun r hr => ?_
  cases r with
  | ok a => exact yields_pure (hr a rfl)
  | error e => exact hhandle e

theorem yields_forEach {R : α → β → Prop} {xs : List α} (hf : ∀ x ∈ xs, (f x).Yields S (R x)) :
    (forEach f xs).Yields S fun ys => xs.length = ys.length ∧ ∀ p ∈ xs.zip ys, R p.1 p.2 := by
  induction xs with
  | nil =>
    apply yields_pure
    exact ⟨rfl, fun p hp => by cases hp⟩
  | cons x xs ih =>
    obtain ⟨hx, hxs⟩ := List.forall_mem_cons.mp hf
    refine yields_bind hx fun y hy => yields_bind (ih hxs) fun ys hys => yields_pure ?_
    exact ⟨congrArg (· + 1) hys.1, List.forall_mem_cons.mpr ⟨hy, hys.2⟩⟩

theorem returns_pure (h : R a) : (pure a : ProgE ε κ ν α).Returns S R := ⟨a, rfl, h⟩

theorem Returns.mono {R' : α → Prop} (hp : p.Returns S R) (h : ∀ a, R a → R' a) :
    p.Returns S R' :=
  Prog.Ensures.mono hp fun _ ⟨a, ha, hR⟩ => ⟨a, ha, h a hR⟩

theorem Returns.yields (hp : p.Returns S R) : p.Yields S R := by
  refine Prog.Ensures.mono hp fun r hr b hb => ?_
  obtain ⟨a, rfl, ha⟩ := hr
  cases hb
  exact ha

theorem returns_bind (hp : p.Returns S R) (hf : ∀ a, R a → (f a).Returns S T) :
    (p >>= f).Returns S T := by
  refine Prog.ensures_bind hp fun r hr => ?_
  obtain ⟨a, rfl, ha⟩ := hr
  exact hf a ha

theorem returns_lift {m : Prog κ ν α} (hm : m.Ensures S R) :
    (liftM m : ProgE ε κ ν α).Returns S R :=
  Prog.ensures_bind hm fun _ ha => returns_pure ha

/-- A program that returns does not need its handler. -/
theorem returns_tryCatch (hp : p.Returns S R) :
    (tryCatch p handle : ProgE ε κ ν α).Returns S R := by
  refine Prog.ensures_bind hp fun r hr => ?_
  obtain ⟨a, rfl, ha⟩ := hr
  exact returns_pure ha

/-- A program whose handler returns does. -/
theorem returns_handled (hp : p.Yields S R) (hhandle : ∀ e, (handle e).Returns S R) :
    (tryCatch p handle : ProgE ε κ ν α).Returns S R := by
  refine Prog.ensures_bind hp fun r hr => ?_
  cases r with
  | ok a => exact returns_pure (hr a rfl)
  | error e => exact hhandle e

theorem returns_forEach {R : α → β → Prop} {xs : List α}
    (hf : ∀ x ∈ xs, (f x).Returns S (R x)) :
    (forEach f xs).Returns S fun ys => xs.length = ys.length ∧ ∀ p ∈ xs.zip ys, R p.1 p.2 := by
  induction xs with
  | nil =>
    apply returns_pure
    exact ⟨rfl, fun p hp => by cases hp⟩
  | cons x xs ih =>
    obtain ⟨hx, hxs⟩ := List.forall_mem_cons.mp hf
    refine returns_bind hx fun y hy => returns_bind (ih hxs) fun ys hys => returns_pure ?_
    exact ⟨congrArg (· + 1) hys.1, List.forall_mem_cons.mpr ⟨hy, hys.2⟩⟩

/-- What a program yields and that it returns go together. -/
theorem Yields.returns {R' : α → Prop} (hp : p.Yields S R)
    (hp' : p.Returns (fun _ _ => True) R') : p.Returns S fun a => R a ∧ R' a := by
  refine (Prog.Ensures.and hp hp').mono fun r hr => ?_
  obtain ⟨hyields, a, rfl, ha⟩ := hr
  exact ⟨a, rfl, hyields a rfl, ha⟩

/-- A program that returns leaves what follows to run from the dictionary it leaves. -/
theorem run_bind {bound : Nat} [DecidableEq κ] [Fact (0 < bound)] {c : Cache κ ν bound} :
    (p >>= f).run.run c = match p.run.run c with
      | (.ok a, c') => (f a).run.run c'
      | (.error e, c') => (.error e, c') := by
  change ((ExceptT.run p).bind _).run c = _
  induction ExceptT.run p generalizing c with
  | pure r => cases r <;> rfl
  | get key next ih => exact ih _
  | store key value next ih => exact ih

end ProgE

/-- Where nothing is asked of the entries, every program keeps to it. -/
theorem Prog.ensures_trivial {κ ν α : Type} (p : Prog κ ν α) :
    p.Ensures (fun _ _ => True) fun _ => True := by
  induction p with
  | pure a => trivial
  | get key next ih => exact ⟨ih none, fun value _ => ih (some value)⟩
  | store key value next ih => exact ⟨trivial, ih⟩

end Memo
