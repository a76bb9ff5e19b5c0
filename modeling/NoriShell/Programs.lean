import Mathlib.Logic.Basic
import Mathlib.Tactic.Common

/-! Programs that call an environment, where any call may be the last one.  A
schedule gives each call its turn, and a schedule that ends first cuts the
program off. -/

universe u v w

namespace NoriShell

inductive Program (Call : Type u) (Answer : Call → Type v) (α : Type v) : Type (max u v)
  | done (value : α)
  | call (request : Call) (resume : Answer request → Program Call Answer α)

namespace Program

variable {Call : Type u} {Answer : Call → Type v} {α β ε : Type v}

def bind : Program Call Answer α → (α → Program Call Answer β) → Program Call Answer β
  | .done value, f => f value
  | .call request resume, f => .call request fun answer => (resume answer).bind f

instance : Monad (Program Call Answer) where
  pure := .done
  bind := .bind

def ask (request : Call) : Program Call Answer (Answer request) :=
  .call request .done

abbrev Fallible (Call : Type u) (Answer : Call → Type v) (ε α : Type v) : Type (max u v) :=
  ExceptT ε (Program Call Answer) α

def ofExcept : Except ε α → Fallible Call Answer ε α
  | .ok value => pure value
  | .error e => throw e

section

variable {σ τ : Type w} (perform : (request : Call) → τ → σ → Answer request × σ)

def run : Program Call Answer α → List τ → σ → Option α × σ
  | .done value, _, s => (some value, s)
  | .call _ _, [], s => (none, s)
  | .call request resume, turn :: turns, s =>
    (resume (perform request turn s).1).run turns (perform request turn s).2

/-- The weakest condition under which the program ends in `post`, and is in `cut`
whenever it can be cut off. -/
def wp (post : α → σ → Prop) (cut : σ → Prop) : Program Call Answer α → σ → Prop
  | .done value, s => post value s
  | .call request resume, s =>
    cut s ∧ ∀ turn, (resume (perform request turn s).1).wp post cut (perform request turn s).2

variable {perform} {post : α → σ → Prop} {cut : σ → Prop}

theorem wp_run {p : Program Call Answer α} {s : σ} (h : p.wp perform post cut s) (turns : List τ) :
    match p.run perform turns s with
    | (some value, t) => post value t
    | (none, t) => cut t := by
  induction p generalizing s turns with
  | done value => exact h
  | call request resume ih =>
    cases turns with
    | nil => exact h.1
    | cons turn turns => exact ih _ (h.2 turn) turns

theorem wp_mono {post' : α → σ → Prop} {cut' : σ → Prop} {p : Program Call Answer α} {s : σ}
    (weaker : ∀ value t, post value t → post' value t) (cuts : ∀ t, cut t → cut' t)
    (h : p.wp perform post cut s) : p.wp perform post' cut' s := by
  induction p generalizing s with
  | done value => exact weaker value s h
  | call request resume ih => exact ⟨cuts s h.1, fun turn => ih _ (h.2 turn)⟩

theorem wp_bind {p : Program Call Answer β} {f : β → Program Call Answer α} {s : σ} :
    (p >>= f).wp perform post cut s ↔
      p.wp perform (fun value t => (f value).wp perform post cut t) cut s := by
  induction p generalizing s with
  | done value => exact Iff.rfl
  | call request resume ih => exact and_congr_right fun _ => forall_congr' fun _ => ih _

end

section

variable {σ τ : Type w} (perform : (request : Call) → τ → σ → Answer request × σ)

/-- From `pre` the program ends in `post`; where it fails or is cut off, `stop` holds. -/
def Meets (pre : σ → Prop) (p : Fallible Call Answer ε α) (post : α → σ → Prop)
    (stop : σ → Prop) : Prop :=
  ∀ s, pre s → p.run.wp perform (fun result t =>
    match result with
    | .ok value => post value t
    | .error _ => stop t) stop s

namespace Meets

variable {perform} {pre stop : σ → Prop} {post : α → σ → Prop} {post' : β → σ → Prop}

theorem pure {value : α} (h : ∀ s, pre s → post value s) :
    Meets perform pre (pure value : Fallible Call Answer ε α) post stop :=
  h

theorem throw {e : ε} (h : ∀ s, pre s → stop s) :
    Meets perform pre (throw e : Fallible Call Answer ε α) post stop :=
  h

theorem bind {p : Fallible Call Answer ε α} {f : α → Fallible Call Answer ε β}
    (first : Meets perform pre p post stop)
    (rest : ∀ value, Meets perform (post value) (f value) post' stop) :
    Meets perform pre (p >>= f) post' stop := by
  intro s h
  refine wp_bind.mpr (wp_mono (fun result t ended => ?_) (fun _ h => h) (first s h))
  cases result with
  | ok value => exact rest value t ended
  | error e => exact ended

/-- The rule for a call: what its answer and effect can be, in any turn. -/
theorem ask {request : Call} {post : Answer request → σ → Prop} (before : ∀ s, pre s → stop s)
    (after : ∀ s turn, pre s → post (perform request turn s).1 (perform request turn s).2) :
    Meets perform pre (liftM (Program.ask request) : Fallible Call Answer ε (Answer request)) post
      stop :=
  fun s h => ⟨before s h, fun turn => after s turn h⟩

theorem ofExcept {result : Except ε α} (before : ∀ s, pre s → stop s) :
    Meets perform pre (Program.ofExcept result : Fallible Call Answer ε α)
      (fun value s => pre s ∧ result = .ok value) stop := by
  cases result with
  | ok value => exact pure fun s h => ⟨h, rfl⟩
  | error e => exact throw before

theorem weaken {pre' : σ → Prop} {p : Fallible Call Answer ε α} {post' : α → σ → Prop}
    (h : Meets perform pre p post stop) (stronger : ∀ s, pre' s → pre s)
    (weaker : ∀ value s, post value s → post' value s) :
    Meets perform pre' p post' stop := by
  intro s hs
  refine wp_mono (fun result t ended => ?_) (fun _ h => h) (h s (stronger s hs))
  cases result with
  | ok value => exact weaker value t ended
  | error e => exact ended

theorem given {fact : Prop} {p : Fallible Call Answer ε α}
    (h : fact → Meets perform pre p post stop) :
    Meets perform (fun s => pre s ∧ fact) p post stop :=
  fun s hs => h hs.2 s hs.1

theorem stops {stop' : σ → Prop} {p : Fallible Call Answer ε α}
    (h : Meets perform pre p post stop) (weaker : ∀ s, stop s → stop' s) :
    Meets perform pre p post stop' := by
  intro s hs
  refine wp_mono (fun result t ended => ?_) weaker (h s hs)
  cases result with
  | ok value => exact ended
  | error e => exact weaker t ended

/-- The loop rule: the invariant speaks of the elements that are still to come. -/
theorem forM {items : List α} {body : α → Fallible Call Answer ε PUnit} (inv : List α → σ → Prop)
    (step : ∀ item rest, item ∈ items →
      Meets perform (inv (item :: rest)) (body item) (fun _ => inv rest) stop) :
    Meets perform (inv items) (items.forM body) (fun _ => inv []) stop := by
  induction items with
  | nil => exact pure fun _ h => h
  | cons item rest ih =>
    refine bind (step item rest List.mem_cons_self) fun _ => ?_
    exact ih fun item' rest' mem => step item' rest' (List.mem_cons_of_mem _ mem)

theorem run {p : Fallible Call Answer ε α} (h : Meets perform pre p post stop) {s : σ}
    (hs : pre s) (turns : List τ) :
    match Program.run perform p.run turns s with
    | (some (.ok value), t) => post value t
    | (some (.error _), t) => stop t
    | (none, t) => stop t := by
  have ended := wp_run (h s hs) turns
  split <;> simp_all

end Meets

end

end Program

end NoriShell
