import Mathlib.Order.Defs.Unbundled
import Mathlib.Data.List.Basic
import Mathlib.Data.List.Forall2
import Mathlib.Algebra.Ring.Nat
import RunAlexDb.Lib.Trace

/-!
# Prog — programs with a state that outlives a failure

`Prog σ ε α` is a computation over a state `σ` that ends with a value or fails
with an `ε`; the state it leaves is kept in both cases, as memory is when a
thread panics in the middle of an update.

Rules come in three kinds. `Moves R m` says that every run of `m`, failed or
not, takes the state along the preorder `R`: frame conditions and invariants
are of this form. `Returns Q m` says that what `m` returns satisfies `Q`.
`Agree E m n` says that `m` and `n`, started in states related by `E`, give the
same outcome and end in states related by `E`.
-/

/-- A computation over `σ` that may fail; the state survives the failure. -/
abbrev Prog (σ ε α : Type) := ExceptT ε (StateM σ) α

namespace Prog

variable {σ τ ε α β : Type}

/-- Outcome and final state. -/
def exec (m : Prog σ ε α) (s : σ) : Except ε α × σ := m.run.run s

/-- A program given by what it does on every state. -/
def mk (f : σ → Except ε α × σ) : Prog σ ε α := ExceptT.mk fun s => f s

/-- A computation without state. -/
def ofExcept (x : Except ε α) : Prog σ ε α := mk fun s => (x, s)

@[simp] theorem exec_mk (f : σ → Except ε α × σ) (s : σ) : (mk f).exec s = f s := rfl

@[simp] theorem exec_pure (a : α) (s : σ) : (pure a : Prog σ ε α).exec s = (.ok a, s) := rfl

@[simp] theorem exec_throw (e : ε) (s : σ) : (throw e : Prog σ ε α).exec s = (.error e, s) := rfl

@[simp] theorem exec_get (s : σ) : (get : Prog σ ε σ).exec s = (.ok s, s) := rfl

@[simp] theorem exec_modify (f : σ → σ) (s : σ) : (modify f : Prog σ ε Unit).exec s = (.ok (), f s) := rfl

@[simp] theorem exec_set (t s : σ) : (set t : Prog σ ε Unit).exec s = (.ok (), t) := rfl

@[simp] theorem exec_ofExcept (x : Except ε α) (s : σ) : (ofExcept x : Prog σ ε α).exec s = (x, s) := rfl

theorem exec_bind (m : Prog σ ε α) (f : α → Prog σ ε β) (s : σ) :
    (m >>= f).exec s = match m.exec s with
      | (.ok a, s') => (f a).exec s'
      | (.error e, s') => (.error e, s') := by
  show StateT.run (ExceptT.bindCont f (m.exec s).1) (m.exec s).2 = _
  rcases m.exec s with ⟨_ | _, _⟩ <;> rfl

/-- A bind whose first part succeeds. -/
theorem exec_bind_ok {m : Prog σ ε α} {f : α → Prog σ ε β} {s s' : σ} {a : α}
    (h : m.exec s = (.ok a, s')) : (m >>= f).exec s = (f a).exec s' := by
  rw [exec_bind, h]

theorem exec_map (f : α → β) (m : Prog σ ε α) (s : σ) :
    (f <$> m).exec s = ((m.exec s).1.map f, (m.exec s).2) := by
  rw [← bind_pure_comp, exec_bind]
  rcases m.exec s with ⟨_ | _, _⟩ <;> rfl

@[simp] theorem exec_get_bind (f : σ → Prog σ ε β) (s : σ) : (get >>= f).exec s = (f s).exec s := rfl

@[simp] theorem exec_modify_bind (f : σ → σ) (k : Unit → Prog σ ε β) (s : σ) :
    (modify f >>= k).exec s = (k ()).exec (f s) := rfl

@[simp] theorem exec_set_bind (t : σ) (k : Unit → Prog σ ε β) (s : σ) :
    (set t >>= k).exec s = (k ()).exec t := rfl

/-- Run a program on a component of the state and put the component back. -/
def zoom (look : σ → τ) (put : τ → σ → σ) (m : Prog τ ε α) : Prog σ ε α :=
  mk fun s => ((m.exec (look s)).1, put (m.exec (look s)).2 s)

/-- `for x in xs { f(x) }`. -/
def forEach (f : β → Prog σ ε Unit) : List β → Prog σ ε Unit
  | [] => pure ()
  | x :: xs => do
    f x
    forEach f xs

/-- `for x in xs.iter_mut()`: run `body` on each element in place and add up
what it returns. Elements before a failing one keep their new values, those
after it their old ones. -/
def iterMut (body : Prog τ ε Nat) : Prog (List τ) ε Nat :=
  mk go
where
  go : List τ → Except ε Nat × List τ
    | [] => (.ok 0, [])
    | x :: xs =>
      match body.exec x with
      | (.error e, x') => (.error e, x' :: xs)
      | (.ok n, x') => ((go xs).1.map (n + ·), x' :: (go xs).2)

/-- `Vec::retain`: an element on which `keep` fails stays, with all after it. -/
def retain (keep : τ → Except ε Bool) : Prog (List τ) ε Unit :=
  mk go
where
  go : List τ → Except ε Unit × List τ
    | [] => (.ok (), [])
    | x :: xs =>
      match keep x with
      | .error e => (.error e, x :: xs)
      | .ok true => ((go xs).1, x :: (go xs).2)
      | .ok false => go xs

-- ---------------------------------------------------------------------------
-- Loops over lists
-- ---------------------------------------------------------------------------

/-- A filter whose condition is decided on every element. -/
theorem filterM_ok {f : α → Except ε Bool} {b : α → Bool} {l : List α}
    (h : ∀ x ∈ l, f x = .ok (b x)) : l.filterM f = .ok (l.filter b) := by
  have hAux : ∀ acc, l.filterAuxM f acc = .ok ((l.filter b).reverse ++ acc) := by
    induction l with
    | nil => exact fun acc => rfl
    | cons x l ih =>
      intro acc
      rw [List.filterAuxM, h x (List.mem_cons_self ..), List.filter_cons]
      show l.filterAuxM f (cond (b x) (x :: acc) acc) = _
      rw [ih fun y hy => h y (List.mem_cons_of_mem _ hy)]
      cases b x
      · rfl
      · simp
  rw [List.filterM, hAux]
  show Except.ok ((l.filter b).reverse ++ []).reverse = _
  rw [List.append_nil, List.reverse_reverse]

/-- A filter that succeeds has decided its condition on every element. -/
theorem decided_of_filterM {f : α → Except ε Bool} {l res : List α} (h : l.filterM f = .ok res) :
    ∀ x ∈ l, ∃ b, f x = .ok b := by
  have hAux : ∀ acc res', l.filterAuxM f acc = .ok res' → ∀ x ∈ l, ∃ b, f x = .ok b := by
    clear h
    induction l with
    | nil => nofun
    | cons y l ih =>
      intro acc res' hRun x hx
      rw [List.filterAuxM] at hRun
      cases hy : f y with
      | error e => rw [hy] at hRun; cases hRun
      | ok b =>
        rw [hy] at hRun
        rcases List.mem_cons.1 hx with rfl | hIn
        · exact ⟨b, hy⟩
        · exact ih _ _ hRun x hIn
  rw [List.filterM] at h
  cases hRun : l.filterAuxM f [] with
  | error e => rw [hRun] at h; cases h
  | ok res' => exact hAux [] res' hRun

theorem eq_of_filterM [DecidableEq ε] {f : α → Except ε Bool} {l res : List α}
    (h : l.filterM f = .ok res) : res = l.filter fun x => decide (f x = .ok true) := by
  have hRes : l.filterM f = .ok (l.filter fun x => decide (f x = .ok true)) := by
    refine filterM_ok fun x hx => ?_
    obtain ⟨b, hb⟩ := decided_of_filterM h x hx
    rw [hb]
    cases b <;> rfl
  exact Except.ok.inj (h.symm.trans hRes)

/-- A filter of the images of the elements. -/
theorem filterM_map (g : β → α) (f : α → Except ε Bool) (l : List β) :
    (l.map g).filterM f = (l.filterM fun x => f (g x)).map (List.map g) := by
  have hAux : ∀ acc, (l.map g).filterAuxM f (acc.map g) =
      (l.filterAuxM (fun x => f (g x)) acc).map (List.map g) := by
    induction l with
    | nil => exact fun acc => rfl
    | cons x l ih =>
      intro acc
      rw [List.map_cons, List.filterAuxM, List.filterAuxM]
      cases f (g x) with
      | error e => rfl
      | ok b =>
        show (l.map g).filterAuxM f (cond b (g x :: acc.map g) (acc.map g)) =
          (l.filterAuxM (fun x => f (g x)) (cond b (x :: acc) acc)).map (List.map g)
        rw [← ih]
        cases b <;> rfl
  rw [List.filterM, List.filterM, ← List.map_nil, hAux]
  cases l.filterAuxM (fun x => f (g x)) [] with
  | error e => rfl
  | ok res => exact congrArg Except.ok List.map_reverse.symm

theorem exec_retain_ok {keep : τ → Except ε Bool} {b : τ → Bool} {l : List τ}
    (h : ∀ x ∈ l, keep x = .ok (b x)) : (retain keep).exec l = (.ok (), l.filter b) := by
  show retain.go keep l = _
  induction l with
  | nil => rfl
  | cons x l ih =>
    rw [retain.go, h x (List.mem_cons_self ..), ih fun y hy => h y (List.mem_cons_of_mem _ hy),
      List.filter_cons]
    cases b x <;> rfl

/-- A loop that succeeds has decided its condition on every element. -/
theorem decided_of_retain {keep : τ → Except ε Bool} {l : List τ}
    (h : ((retain keep).exec l).1 = .ok ()) : ∀ x ∈ l, ∃ b, keep x = .ok b := by
  have h : (retain.go keep l).1 = .ok () := h
  induction l with
  | nil => nofun
  | cons y l ih =>
    rw [retain.go] at h
    intro x hx
    cases hy : keep y with
    | error e => rw [hy] at h; cases h
    | ok b =>
      have hRest : (retain.go keep l).1 = .ok () := by
        rw [hy] at h
        cases b <;> exact h
      rcases List.mem_cons.1 hx with rfl | hIn
      · exact ⟨b, hy⟩
      · exact ih hRest hRest x hIn

/-- Bodies that do the same to every element. -/
theorem iterMut_congr {body body' : Prog τ ε Nat} {l : List τ}
    (h : ∀ x ∈ l, body.exec x = body'.exec x) : (iterMut body).exec l = (iterMut body').exec l := by
  show iterMut.go body l = iterMut.go body' l
  induction l with
  | nil => rfl
  | cons x l ih =>
    rw [iterMut.go, iterMut.go, h x (List.mem_cons_self ..),
      ih fun y hy => h y (List.mem_cons_of_mem _ hy)]

/-- A body that succeeds on every element. -/
theorem exec_iterMut_map {body : Prog τ ε Nat} {l : List τ} {n : τ → Nat} {f : τ → τ}
    (h : ∀ x ∈ l, body.exec x = (.ok (n x), f x)) :
    (iterMut body).exec l = (.ok (l.map n).sum, l.map f) := by
  show iterMut.go body l = _
  induction l with
  | nil => rfl
  | cons x l ih =>
    rw [iterMut.go, h x (List.mem_cons_self ..), ih fun y hy => h y (List.mem_cons_of_mem _ hy)]
    rfl

/-- A body that fails on no element. -/
theorem exec_iterMut_of_ok {body : Prog τ ε Nat} {l : List τ}
    (h : ∀ x ∈ l, ∃ n, (body.exec x).1 = .ok n) :
    ((iterMut body).exec l).2 = l.map fun x => (body.exec x).2 := by
  have hRun : ∀ x ∈ l, body.exec x = (.ok ((body.exec x).1.toOption.getD 0), (body.exec x).2) := by
    intro x hx
    obtain ⟨n, hn⟩ := h x hx
    refine Prod.ext ?_ rfl
    rw [hn]
    rfl
  rw [exec_iterMut_map hRun]

theorem ok_of_iterMut {body : Prog τ ε Nat} {l : List τ} {k : Nat}
    (h : ((iterMut body).exec l).1 = .ok k) : ∀ x ∈ l, ∃ n, (body.exec x).1 = .ok n := by
  have h : (iterMut.go body l).1 = .ok k := h
  induction l generalizing k with
  | nil => nofun
  | cons y l ih =>
    rw [iterMut.go] at h
    intro x hx
    rcases hy : body.exec y with ⟨_ | n, y'⟩ <;> rw [hy] at h
    · cases h
    · rcases List.mem_cons.1 hx with rfl | hIn
      · exact ⟨n, congrArg Prod.fst hy⟩
      · cases hRest : (iterMut.go body l).1 with
        | error e => rw [hRest] at h; cases h
        | ok k' => exact ih (k := k') hRest hRest x hIn

/-- A body that leaves every element alone and counts none. -/
theorem iterMut_quiet {body : Prog τ ε Nat} {l : List τ} (h : ∀ x ∈ l, body.exec x = (.ok 0, x)) :
    (iterMut body).exec l = (.ok 0, l) := by
  show iterMut.go body l = _
  induction l with
  | nil => rfl
  | cons x l ih =>
    rw [iterMut.go, h x (List.mem_cons_self ..), ih fun y hy => h y (List.mem_cons_of_mem _ hy)]
    rfl

/-- A body that leaves all elements but one alone. -/
theorem iterMut_one {body : Prog τ ε Nat} {l : List τ} {i : Nat} {x : τ} (hGet : l[i]? = some x)
    (h : ∀ j y, l[j]? = some y → j ≠ i → body.exec y = (.ok 0, y)) :
    (iterMut body).exec l = ((body.exec x).1, l.set i (body.exec x).2) := by
  show iterMut.go body l = _
  induction l generalizing i with
  | nil => cases hGet
  | cons y l ih =>
    rw [iterMut.go]
    cases i with
    | zero =>
      have hQuiet : iterMut.go body l = (.ok 0, l) :=
        iterMut_quiet fun z hz => by
          obtain ⟨j, hj⟩ := List.mem_iff_getElem?.1 hz
          exact h (j + 1) z hj (by omega)
      obtain rfl : y = x := Option.some.inj hGet
      rw [hQuiet]
      rcases body.exec y with ⟨_ | n, y'⟩ <;> rfl
    | succ i =>
      rw [h 0 y rfl (by omega), ih hGet fun j z hz hNe => h (j + 1) z hz (by omega)]
      rcases body.exec x with ⟨_ | n, x'⟩
      · rfl
      · simp [Except.map]

theorem forEach_map (g : α → β) (f : β → Prog σ ε Unit) (l : List α) :
    forEach f (l.map g) = forEach (fun x => f (g x)) l := by
  induction l with
  | nil => rfl
  | cons x l ih => rw [List.map_cons, forEach, forEach, ih]

/-- A last step that only returns leaves the state of what comes before it. -/
theorem exec_bind_return (m : Prog σ ε α) (f : α → β) (s : σ) :
    ((m >>= fun a => Pure.pure (f a)).exec s).2 = (m.exec s).2 := by
  rw [exec_bind]
  rcases m.exec s with ⟨_ | a, s'⟩ <;> rfl

/-- A loop runs its body on the elements in order, up to the first failure. -/
theorem exec_forEach (f : β → Prog σ ε Unit) (l : List β) (s : σ) :
    ∃ done, done <+: l ∧
      ((forEach f l).exec s).2 = Trace.run (fun s x => ((f x).exec s).2) s done := by
  induction l generalizing s with
  | nil => exact ⟨[], List.nil_prefix, rfl⟩
  | cons x l ih =>
    rw [forEach, exec_bind]
    rcases hRun : (f x).exec s with ⟨_ | _, s'⟩
    · exact ⟨[x], (List.prefix_cons_inj _).2 List.nil_prefix, by rw [Trace.run_cons, hRun]; rfl⟩
    · obtain ⟨done, hDone, hEq⟩ := ih s'
      exact ⟨x :: done, (List.prefix_cons_inj _).2 hDone, by rw [Trace.run_cons, hRun]; exact hEq⟩

/-- What the body keeps, the loop keeps. -/
theorem forEach_keeps {I : σ → Prop} {C : σ → β → Prop} {f : β → Prog σ ε Unit}
    (hStep : ∀ s x, I s → C s x → I ((f x).exec s).2) {l : List β} {s : σ} (hInit : I s)
    (hAlong : Trace.Along (fun s x => ((f x).exec s).2) C s l) : I ((forEach f l).exec s).2 := by
  obtain ⟨done, ⟨rest, rfl⟩, hEq⟩ := exec_forEach f l s
  rw [hEq]
  exact Trace.invariant_run hStep hInit hAlong.prefix

/-- Every element is left as it is or as the body leaves it. -/
theorem exec_iterMut_forall (body : Prog τ ε Nat) (l : List τ) :
    List.Forall₂ (fun x x' => x' = x ∨ x' = (body.exec x).2) l ((iterMut body).exec l).2 := by
  show List.Forall₂ _ l (iterMut.go body l).2
  induction l with
  | nil => exact .nil
  | cons x l ih =>
    rw [iterMut.go]
    rcases hRun : body.exec x with ⟨_ | n, x'⟩
    · refine .cons (.inr (by rw [hRun])) ?_
      exact List.forall₂_same.2 fun y _ => .inl rfl
    · exact .cons (.inr (by rw [hRun])) ih

theorem exec_retain_sublist (keep : τ → Except ε Bool) (l : List τ) :
    ((retain keep).exec l).2.Sublist l := by
  show (retain.go keep l).2.Sublist l
  induction l with
  | nil => exact .slnil
  | cons x l ih =>
    rw [retain.go]
    rcases keep x with _ | _ | _
    · exact .refl _
    · exact .cons _ ih
    · exact .cons_cons _ ih

-- ---------------------------------------------------------------------------
-- Where a program can take the state
-- ---------------------------------------------------------------------------

/-- Every run of `m` takes the state along `R`. -/
def Moves (R : σ → σ → Prop) (m : Prog σ ε α) : Prop := ∀ s, R s (m.exec s).2

namespace Moves

variable {R : σ → σ → Prop}

theorem pure [Std.Refl R] (a : α) : Moves R (Pure.pure a : Prog σ ε α) := fun s => Std.Refl.refl s

theorem throw [Std.Refl R] (e : ε) : Moves R (MonadExcept.throw e : Prog σ ε α) :=
  fun s => Std.Refl.refl s

theorem get [Std.Refl R] : Moves R (MonadState.get : Prog σ ε σ) := fun s => Std.Refl.refl s

theorem ofExcept [Std.Refl R] (x : Except ε α) : Moves R (Prog.ofExcept x : Prog σ ε α) :=
  fun s => Std.Refl.refl s

theorem modify {f : σ → σ} (h : ∀ s, R s (f s)) : Moves R (modify f : Prog σ ε Unit) := h

/-- A bind from one state: what the first part does there, and what the second
part does anywhere. -/
theorem bind_at [IsTrans σ R] {m : Prog σ ε α} {f : α → Prog σ ε β} {s : σ}
    (hm : R s (m.exec s).2) (hf : ∀ a, Moves R (f a)) : R s ((m >>= f).exec s).2 := by
  rw [exec_bind]
  rcases h : m.exec s with ⟨_ | a, s'⟩
  · simpa [h] using hm
  · rw [h] at hm
    exact IsTrans.trans _ _ _ hm (hf a s')

theorem bind [IsTrans σ R] {m : Prog σ ε α} {f : α → Prog σ ε β} (hm : Moves R m)
    (hf : ∀ a, Moves R (f a)) : Moves R (m >>= f) := fun s => bind_at (hm s) hf

/-- Reading the state and writing it back changed. -/
theorem get_set_bind [IsTrans σ R] {f : σ → σ} {k : σ → Prog σ ε β} (hf : ∀ s, R s (f s))
    (hk : ∀ s, Moves R (k s)) : Moves R (MonadState.get >>= fun s => set (f s) >>= fun _ => k s) :=
  fun s => show R s ((set (f s) >>= fun _ => k s).exec s).2 from bind_at (hf s) fun _ => hk s

/-- A loop moves the state as its body does. -/
theorem forEach [Std.Refl R] [IsTrans σ R] {xs : List β} {f : β → Prog σ ε Unit}
    (hf : ∀ x ∈ xs, Moves R (f x)) : Moves R (forEach f xs) := by
  induction xs with
  | nil => exact Moves.pure _
  | cons x xs ih =>
    exact Moves.bind (hf x (by simp)) fun _ => ih fun y hy => hf y (by simp [hy])

theorem mono {R' : σ → σ → Prop} {m : Prog σ ε α} (h : Moves R m) (hR : ∀ s t, R s t → R' s t) :
    Moves R' m := fun s => hR _ _ (h s)

/-- A zoom moves the whole state as the inner program moves the component. -/
theorem zoom {R' : τ → τ → Prop} {look : σ → τ} {put : τ → σ → σ} {m : Prog τ ε α}
    (h : Moves R' m) (hPut : ∀ s t, R' (look s) t → R s (put t s)) : Moves R (m.zoom look put) :=
  fun s => hPut s _ (h (look s))

end Moves

-- ---------------------------------------------------------------------------
-- What a program returns
-- ---------------------------------------------------------------------------

/-- Every value `m` returns satisfies `Q`. -/
def Returns (Q : α → Prop) (m : Prog σ ε α) : Prop := ∀ s a, (m.exec s).1 = .ok a → Q a

namespace Returns

variable {Q : β → Prop}

theorem pure {b : β} (h : Q b) : Returns Q (Pure.pure b : Prog σ ε β) := by
  intro s a hExec
  cases hExec
  exact h

/-- Only the last part of a bind returns. -/
theorem bind {m : Prog σ ε α} {f : α → Prog σ ε β} (h : ∀ a, Returns Q (f a)) :
    Returns Q (m >>= f) := by
  intro s b hExec
  rw [exec_bind] at hExec
  rcases hRun : m.exec s with ⟨_ | a, s'⟩ <;> rw [hRun] at hExec
  · cases hExec
  · exact h a s' b hExec

theorem map {P : α → Prop} {m : Prog σ ε α} {f : α → β} (hm : Returns P m) (h : ∀ a, P a → Q (f a)) :
    Returns Q (f <$> m) := by
  intro s b hExec
  rw [exec_map] at hExec
  rcases hRun : (m.exec s).1 with e | a
  · rw [hRun] at hExec
    cases hExec
  · rw [hRun] at hExec
    cases hExec
    exact h a (hm s a hRun)

theorem ofExcept_pure {b : β} (h : Q b) :
    Returns Q (Prog.ofExcept (Pure.pure b : Except ε β) : Prog σ ε β) := by
  intro s a hExec
  cases hExec
  exact h

theorem ofExcept_bind {x : Except ε α} {f : α → Except ε β}
    (h : ∀ a, Returns Q (Prog.ofExcept (f a) : Prog σ ε β)) :
    Returns Q (Prog.ofExcept (x >>= f) : Prog σ ε β) := by
  intro s b hExec
  cases x with
  | error e => cases hExec
  | ok a => exact h a s b hExec

end Returns

-- ---------------------------------------------------------------------------
-- Two runs side by side
-- ---------------------------------------------------------------------------

/-- From states related by `E`, `m` and `n` give the same outcome and end in
states related by `E`. -/
def Agree (E : σ → τ → Prop) (m : Prog σ ε α) (n : Prog τ ε α) : Prop :=
  ∀ s t, E s t → (m.exec s).1 = (n.exec t).1 ∧ E (m.exec s).2 (n.exec t).2

namespace Agree

variable {E : σ → τ → Prop}

theorem pure (a : α) : Agree E (Pure.pure a : Prog σ ε α) (Pure.pure a) :=
  fun _ _ h => ⟨rfl, h⟩

theorem throw (e : ε) : Agree E (MonadExcept.throw e : Prog σ ε α) (MonadExcept.throw e) :=
  fun _ _ h => ⟨rfl, h⟩

theorem ofExcept (x : Except ε α) : Agree E (Prog.ofExcept x) (Prog.ofExcept x) :=
  fun _ _ h => ⟨rfl, h⟩

theorem modify {f : σ → σ} {g : τ → τ} (h : ∀ s t, E s t → E (f s) (g t)) :
    Agree E (modify f : Prog σ ε Unit) (modify g) := fun s t hst => ⟨rfl, h s t hst⟩

theorem bind {m : Prog σ ε α} {n : Prog τ ε α} {f : α → Prog σ ε β} {g : α → Prog τ ε β}
    (hm : Agree E m n) (hf : ∀ a, Agree E (f a) (g a)) : Agree E (m >>= f) (n >>= g) := by
  intro s t hst
  obtain ⟨hOut, hSt⟩ := hm s t hst
  rw [exec_bind, exec_bind]
  rcases hs : m.exec s with ⟨_ | a, s'⟩ <;> rcases ht : n.exec t with ⟨_ | b, t'⟩ <;>
    rw [hs, ht] at hOut hSt
  · exact ⟨by simpa using hOut, hSt⟩
  · cases hOut
  · cases hOut
  · cases hOut
    exact hf a s' t' hSt

/-- Reading the state: the continuations must agree from the states read. -/
theorem get_bind {f : σ → Prog σ ε β} {g : τ → Prog τ ε β}
    (h : ∀ s t, E s t → Agree E (f s) (g t)) :
    Agree E (MonadState.get >>= f) (MonadState.get >>= g) :=
  fun s t hst => h s t hst s t hst

theorem forEach {xs : List β} {f : β → Prog σ ε Unit} {g : β → Prog τ ε Unit}
    (h : ∀ x ∈ xs, Agree E (f x) (g x)) : Agree E (forEach f xs) (forEach g xs) := by
  induction xs with
  | nil => exact Agree.pure _
  | cons x xs ih =>
    exact Agree.bind (h x (by simp)) fun _ => ih fun y hy => h y (by simp [hy])

end Agree

end Prog
