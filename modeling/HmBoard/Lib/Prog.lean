/-!
# Programs as trees of primitive accesses

A task or an interrupt handler is a tree `Prog`: it asks for one primitive access `op o`, gets
the answer, and goes on. One tree has two readings, and the modules above use both:

* `run` executes it to the end against a state (nothing else runs meanwhile);
* a scheduler executes it one access at a time (`op o k` becomes `k r`), so that an interrupt
  or another task can be placed between any two accesses.

`run_bind` is the rule for the first reading; `Always` says that a property holds in every state in
between, `All` that every access in the tree is of a kind, and `Does` which accesses lead to what is
left of it. A property that is `Compositional` follows the code: one rule for a sequence, one for a
loop.
-/

namespace HmBoard.Lib

/-- A program over accesses `Op`, where access `o` answers with a `Res o`. -/
inductive Prog (Op : Type) (Res : Op → Type) (α : Type) : Type where
  | ret (a : α) : Prog Op Res α
  | op (o : Op) (k : Res o → Prog Op Res α) : Prog Op Res α

namespace Prog

variable {Op : Type} {Res : Op → Type} {α β γ σ τ : Type}

def bind : Prog Op Res α → (α → Prog Op Res β) → Prog Op Res β
  | ret a, f => f a
  | op o k, f => op o fun r => bind (k r) f

instance : Monad (Prog Op Res) where
  pure := ret
  bind := bind

/-- A single access. -/
def call (o : Op) : Prog Op Res (Res o) := op o ret

/-- `for (i = 0; i < n; i++) body`, where `body` maps the loop-carried variables. -/
def loop (body : Nat → τ → Prog Op Res τ) (x : τ) : Nat → Prog Op Res τ
  | 0 => ret x
  | n + 1 => bind (loop body x n) (body n)

/-- `for (i = 0; i < n; i++) body` without loop-carried variables. -/
@[irreducible] def forTo (n : Nat) (body : Nat → Prog Op Res Unit) : Prog Op Res Unit :=
  loop (fun i _ => body i) () n

@[simp] theorem pure_eq (a : α) : (pure a : Prog Op Res α) = ret a := rfl
@[simp] theorem bind_eq (p : Prog Op Res α) (f : α → Prog Op Res β) : (p >>= f) = bind p f := rfl
@[simp] theorem ret_bind (a : α) (f : α → Prog Op Res β) : bind (ret a) f = f a := rfl
@[simp] theorem op_bind (o : Op) (k : Res o → Prog Op Res α) (f : α → Prog Op Res β) :
    bind (op o k) f = op o fun r => bind (k r) f := rfl
@[simp] theorem call_bind (o : Op) (f : Res o → Prog Op Res β) :
    bind (call o) f = op o f := rfl

@[simp] theorem bind_assoc (p : Prog Op Res α) (f : α → Prog Op Res β) (g : β → Prog Op Res γ) :
    bind (bind p f) g = bind p fun a => bind (f a) g := by
  induction p with
  | ret a => rfl
  | op o k ih => simp only [op_bind, ih]

@[simp] theorem bind_ret (p : Prog Op Res α) : bind p ret = p := by
  induction p with
  | ret a => rfl
  | op o k ih => simp only [op_bind, ih]

/-! ## Loops whose variables do not depend on the answers -/

theorem forTo_zero (body : Nat → Prog Op Res Unit) : forTo 0 body = ret () := by
  unfold forTo; rfl

theorem forTo_succ (n : Nat) (body : Nat → Prog Op Res Unit) :
    forTo (n + 1) body = bind (forTo n body) fun _ => body n := by
  unfold forTo; rfl

/-- The first round taken off. -/
theorem forTo_succ' (n : Nat) (body : Nat → Prog Op Res Unit) :
    forTo (n + 1) body = bind (body 0) fun _ => forTo n fun i => body (i + 1) := by
  induction n with
  | zero =>
    rw [forTo_succ, forTo_zero, forTo_zero]
    exact (bind_ret (body 0)).symm
  | succ n ih => rw [forTo_succ, ih, bind_assoc]; simp only [forTo_succ]

/-- A loop whose variables run through `x 0`, `x 1`, …, whatever its accesses are answered, is the
loop over its accesses. -/
theorem loop_eq_forTo {body : Nat → τ → Prog Op Res τ} {act : Nat → Prog Op Res Unit}
    (x : Nat → τ) (h : ∀ i, body i (x i) = bind (act i) fun _ => ret (x (i + 1))) (n : Nat) :
    loop body (x 0) n = bind (forTo n act) fun _ => ret (x n) := by
  induction n with
  | zero => rw [forTo_zero]; rfl
  | succ n ih =>
    rw [loop, ih, forTo_succ, bind_assoc, bind_assoc]
    simp only [ret_bind, h]

/-! ## What a program is composed of -/

/-- A property of programs that a return has and that carries over to one program after another. -/
structure Compositional (C : (α : Type) → Prog Op Res α → Prop) : Prop where
  ret : ∀ {α : Type} (a : α), C α (ret a)
  bind : ∀ {α β : Type} {p : Prog Op Res α} {f : α → Prog Op Res β},
    C α p → (∀ a, C β (f a)) → C β (bind p f)

variable {C : (α : Type) → Prog Op Res α → Prop}

/-- A loop has it if every round has. -/
theorem Compositional.loop (hC : Compositional C) {body : Nat → τ → Prog Op Res τ} (x : τ) :
    ∀ {n : Nat}, (∀ i < n, ∀ x, C τ (body i x)) → C τ (Prog.loop body x n)
  | 0, _ => hC.ret x
  | n + 1, h => hC.bind (hC.loop x fun i hi => h i (Nat.lt_succ_of_lt hi)) (h n (Nat.lt_succ_self n))

theorem Compositional.forTo (hC : Compositional C) {body : Nat → Prog Op Res Unit} {n : Nat}
    (h : ∀ i < n, C Unit (body i)) : C Unit (Prog.forTo n body) := by
  unfold Prog.forTo
  exact hC.loop () fun i hi _ => h i hi

/-! ## Running a program to the end -/

/-- Execute the accesses one after the other with `exec`. -/
def run (exec : σ → (o : Op) → σ × Res o) : Prog Op Res α → σ → σ × α
  | ret a, s => (s, a)
  | op o k, s => run exec (k (exec s o).2) (exec s o).1

variable {exec : σ → (o : Op) → σ × Res o}

@[simp] theorem run_ret (a : α) (s : σ) : run exec (ret a) s = (s, a) := rfl
@[simp] theorem run_op (o : Op) (k : Res o → Prog Op Res α) (s : σ) :
    run exec (op o k) s = run exec (k (exec s o).2) (exec s o).1 := rfl
@[simp] theorem run_call (o : Op) (s : σ) : run exec (call o) s = exec s o := rfl

theorem run_bind (p : Prog Op Res α) (f : α → Prog Op Res β) (s : σ) :
    run exec (bind p f) s = run exec (f (run exec p s).2) (run exec p s).1 := by
  induction p generalizing s with
  | ret a => rfl
  | op o k ih => simp only [op_bind, run_op, ih]

theorem run_loop_succ (body : Nat → τ → Prog Op Res τ) (x : τ) (n : Nat) (s : σ) :
    run exec (loop body x (n + 1)) s =
      run exec (body n (run exec (loop body x n) s).2) (run exec (loop body x n) s).1 :=
  run_bind _ _ _

/-- A view of the state on which the accesses act as `exec'` is carried through every program. -/
theorem run_view {exec' : τ → (o : Op) → τ × Res o} (v : σ → τ)
    (h : ∀ s o, v (exec s o).1 = (exec' (v s) o).1 ∧ (exec s o).2 = (exec' (v s) o).2) :
    ∀ (p : Prog Op Res α) (s : σ),
      v (run exec p s).1 = (run exec' p (v s)).1 ∧ (run exec p s).2 = (run exec' p (v s)).2
  | ret _, _ => ⟨rfl, rfl⟩
  | op o k, s => by
    obtain ⟨h1, h2⟩ := h s o
    rw [run_op, run_op, ← h1, ← h2]
    exact run_view v h (k (exec s o).2) (exec s o).1

/-- The state after `f 0`, then `f 1`, …, then `f (n - 1)`. -/
def sweep (f : Nat → σ → σ) (s : σ) : Nat → σ
  | 0 => s
  | n + 1 => f n (sweep f s n)

theorem sweep_succ' (f : Nat → σ → σ) (s : σ) :
    ∀ n, sweep f s (n + 1) = sweep (fun i => f (i + 1)) (f 0 s) n
  | 0 => rfl
  | n + 1 => by rw [sweep, sweep_succ' f s n]; rfl

theorem sweep_inv {f : Nat → σ → σ} (I : σ → Prop) {s : σ} (h0 : I s) :
    ∀ n, (∀ i < n, ∀ s, I s → I (f i s)) → I (sweep f s n)
  | 0, _ => h0
  | n + 1, h => h n (Nat.lt_succ_self n) _
      (sweep_inv I h0 n fun i hi => h i (Nat.lt_succ_of_lt hi))

/-- A view on which `f i` acts as `g i` is swept by `g`. -/
theorem sweep_view {f : Nat → σ → σ} {g : Nat → τ → τ} (v : σ → τ) (s : σ) :
    ∀ {n : Nat}, (∀ i < n, ∀ s, v (f i s) = g i (v s)) → v (sweep f s n) = sweep g (v s) n
  | 0, _ => rfl
  | n + 1, h => by
    rw [sweep, sweep, h n (Nat.lt_succ_self n),
      sweep_view v s fun i hi => h i (Nat.lt_succ_of_lt hi)]

/-! ## Every state in between -/

/-- `I` holds before the program, after it, and between any two of its accesses. -/
def Always (exec : σ → (o : Op) → σ × Res o) (I : σ → Prop) : Prog Op Res α → σ → Prop
  | ret _, s => I s
  | op o k, s => I s ∧ Always exec I (k (exec s o).2) (exec s o).1

theorem Always.here {I : σ → Prop} : ∀ {p : Prog Op Res α} {s : σ}, Always exec I p s → I s
  | ret _, _, h => h
  | op _ _, _, h => h.1

theorem Always.last {I : σ → Prop} : ∀ {p : Prog Op Res α} {s : σ},
    Always exec I p s → I (run exec p s).1
  | ret _, _, h => h
  | op o k, s, h => Always.last (p := k (exec s o).2) h.2

theorem Always.bind {I : σ → Prop} {f : α → Prog Op Res β} : ∀ {p : Prog Op Res α} {s : σ},
    Always exec I p s →
      (I (run exec p s).1 → Always exec I (f (run exec p s).2) (run exec p s).1) →
        Always exec I (Prog.bind p f) s
  | ret _, _, hp, h => h hp
  | op _ _, _, hp, h => ⟨hp.1, Always.bind hp.2 h⟩

theorem Always.call {I : σ → Prop} {o : Op} {f : Res o → Prog Op Res α} {s : σ} (h : I s)
    (hf : Always exec I (f (exec s o).2) (exec s o).1) :
    Always exec I (Prog.bind (Prog.call o) f) s := ⟨h, hf⟩

theorem Always.loop {I : σ → Prop} {body : Nat → τ → Prog Op Res τ} {x : τ} {s : σ} :
    ∀ {n : Nat}, I s →
      (∀ i < n, Always exec I (body i (run exec (Prog.loop body x i) s).2)
        (run exec (Prog.loop body x i) s).1) →
      Always exec I (Prog.loop body x n) s
  | 0, h0, _ => h0
  | n + 1, h0, h =>
    Always.bind (Always.loop h0 fun i hi => h i (Nat.lt_succ_of_lt hi))
      fun _ => h n (Nat.lt_succ_self n)

theorem Always.mono {I J : σ → Prop} (hIJ : ∀ s, I s → J s) :
    ∀ {p : Prog Op Res α} {s : σ}, Always exec I p s → Always exec J p s
  | ret _, _, h => hIJ _ h
  | op _ _, _, h => ⟨hIJ _ h.1, Always.mono hIJ h.2⟩

theorem Always.view {exec' : τ → (o : Op) → τ × Res o} {I : τ → Prop} (v : σ → τ)
    (h : ∀ s o, v (exec s o).1 = (exec' (v s) o).1 ∧ (exec s o).2 = (exec' (v s) o).2) :
    ∀ {p : Prog Op Res α} {s : σ}, Always exec' I p (v s) → Always exec (fun s => I (v s)) p s
  | ret _, _, hI => hI
  | op o k, s, hI => by
    obtain ⟨h1, h2⟩ := h s o
    refine ⟨hI.1, Always.view v h ?_⟩
    rw [h1, h2]
    exact hI.2

/-! ## Every access in the tree -/

/-- Every access the program can ask for, whatever it is answered, satisfies `Q`. -/
def All (Q : Op → Prop) : Prog Op Res α → Prop
  | ret _ => True
  | op o k => Q o ∧ ∀ r, All Q (k r)

variable {Q : Op → Prop}

@[simp] theorem all_ret (a : α) : All Q (ret a : Prog Op Res α) := trivial
@[simp] theorem all_op (o : Op) (k : Res o → Prog Op Res α) :
    All Q (op o k) ↔ Q o ∧ ∀ r, All Q (k r) := Iff.rfl
@[simp] theorem all_call (o : Op) : All Q (call o : Prog Op Res (Res o)) ↔ Q o := by
  simp [call]

theorem All.bind {f : α → Prog Op Res β} : ∀ {p : Prog Op Res α},
    All Q p → (∀ a, All Q (f a)) → All Q (Prog.bind p f)
  | ret a, _, hf => hf a
  | op _ _, hp, hf => ⟨hp.1, fun r => All.bind (hp.2 r) hf⟩

/-- What follows a program follows each of its runs. -/
theorem All.rest (exec : σ → (o : Op) → σ × Res o) {f : α → Prog Op Res β} :
    ∀ {p : Prog Op Res α}, All Q (Prog.bind p f) → ∀ s : σ, All Q (f (Prog.run exec p s).2)
  | ret _, h, _ => h
  | op o k, h, s => All.rest exec (p := k (exec s o).2) (h.2 _) (exec s o).1

theorem All.compositional : Compositional fun _ (p : Prog Op Res _) => All Q p :=
  ⟨fun _ => trivial, All.bind⟩

theorem All.loop {body : Nat → τ → Prog Op Res τ} {x : τ} (h : ∀ i x, All Q (body i x)) (n : Nat) :
    All Q (Prog.loop body x n) :=
  All.compositional.loop x fun i _ => h i

theorem All.forTo {n : Nat} {body : Nat → Prog Op Res Unit} (h : ∀ i, All Q (body i)) :
    All Q (Prog.forTo n body) :=
  All.compositional.forTo fun i _ => h i

theorem All.ite {c : Prop} [Decidable c] {p q : Prog Op Res α} (hp : All Q p) (hq : All Q q) :
    All Q (if c then p else q) := by
  by_cases h : c
  · rwa [if_pos h]
  · rwa [if_neg h]

theorem All.mono {Q' : Op → Prop} (hQ : ∀ o, Q o → Q' o) :
    ∀ {p : Prog Op Res α}, All Q p → All Q' p
  | ret _, _ => trivial
  | op _ _, h => ⟨hQ _ h.1, fun r => All.mono hQ (h.2 r)⟩

/-- What the accesses of a kind keep, a program of them keeps. -/
theorem All.run {I : σ → Prop} (hI : ∀ s o, Q o → I s → I (exec s o).1) :
    ∀ {p : Prog Op Res α} {s : σ}, All Q p → I s → I (Prog.run exec p s).1
  | ret _, _, _, h => h
  | op o k, s, hp, h => All.run hI (p := k (exec s o).2) (hp.2 _) (hI s o hp.1 h)

/-! ## What a program has done -/

/-- `p.Does tr q`: the accesses `tr`, with their answers, lead from `p` to what is left, `q`. -/
inductive Does : Prog Op Res α → List (Σ o, Res o) → Prog Op Res α → Prop where
  | start (p : Prog Op Res α) : Does p [] p
  | access {p : Prog Op Res α} {tr : List (Σ o, Res o)} {o : Op} {k : Res o → Prog Op Res α}
      (h : Does p tr (op o k)) (r : Res o) : Does p (tr ++ [⟨o, r⟩]) (k r)

/-! ## Every path under a monitor -/

variable {μ : Type} {next : μ → (o : Op) → Res o → μ} {ok : μ → Op → Prop}

/-- On every path through the program, whatever the accesses are answered, each access is `ok` in
the state a monitor is in by then, and the monitor ends in a state that satisfies `post`. -/
def Watch (next : μ → (o : Op) → Res o → μ) (ok : μ → Op → Prop) (post : μ → Prop) :
    Prog Op Res α → μ → Prop
  | ret _, m => post m
  | op o k, m => ok m o ∧ ∀ r, Watch next ok post (k r) (next m o r)

theorem Watch.all {Q : Op → Prop} {post : μ → Prop} : ∀ {p : Prog Op Res α} {m : μ},
    Watch next ok post p m → (∀ m o, ok m o → Q o) → All Q p
  | ret _, _, _, _ => trivial
  | op o k, m, h, hok => ⟨hok m o h.1, fun r => Watch.all (p := k r) (h.2 r) hok⟩

/-- A monitor that ignores the accesses of a kind watches a program of them pass by. -/
theorem Watch.of_all {Q : Op → Prop} {post : μ → Prop} {m : μ} (hok : ∀ o, Q o → ok m o)
    (hnext : ∀ o, Q o → ∀ r, next m o r = m) (hpost : post m) :
    ∀ {p : Prog Op Res α}, All Q p → Watch next ok post p m
  | ret _, _ => hpost
  | op o _, h => ⟨hok o h.1, fun r => by
      rw [hnext o h.1 r]
      exact Watch.of_all hok hnext hpost (h.2 r)⟩

theorem Watch.ite {c : Prop} [Decidable c] {post : μ → Prop} {p q : Prog Op Res α} {m : μ}
    (hp : Watch next ok post p m) (hq : Watch next ok post q m) :
    Watch next ok post (if c then p else q) m := by
  by_cases h : c
  · rwa [if_pos h]
  · rwa [if_neg h]

theorem Watch.bind {mid post : μ → Prop} {f : α → Prog Op Res β} :
    ∀ {p : Prog Op Res α} {m : μ}, Watch next ok mid p m →
      (∀ a m, mid m → Watch next ok post (f a) m) → Watch next ok post (Prog.bind p f) m
  | ret a, _, h, hf => hf a _ h
  | op _ _, _, h, hf => ⟨h.1, fun r => Watch.bind (h.2 r) hf⟩

theorem Watch.loop {body : Nat → τ → Prog Op Res τ} {x : τ} {m : μ} (I : Nat → μ → Prop)
    (h0 : I 0 m) : ∀ n, (∀ i < n, ∀ x m, I i m → Watch next ok (I (i + 1)) (body i x) m) →
      Watch next ok (I n) (Prog.loop body x n) m
  | 0, _ => h0
  | n + 1, h => Watch.bind (Watch.loop I h0 n fun i hi => h i (Nat.lt_succ_of_lt hi))
      fun x m hm => h n (Nat.lt_succ_self n) x m hm

/-- An invariant that ties the state to the monitor, kept by every access the monitor lets pass,
holds at the end of a run. -/
theorem Watch.run {post : μ → Prop} (I : μ → σ → Prop)
    (hI : ∀ m s o, I m s → ok m o → I (next m o (exec s o).2) (exec s o).1) :
    ∀ {p : Prog Op Res α} {m : μ} {s : σ}, Watch next ok post p m → I m s →
      ∃ m', post m' ∧ I m' (Prog.run exec p s).1
  | ret _, m, _, h, hs => ⟨m, h, hs⟩
  | op o k, m, s, h, hs => by
    have hk := Watch.run I hI (p := k (exec s o).2) (h.2 _) (hI m s o hs h.1)
    exact hk

end Prog

end HmBoard.Lib
