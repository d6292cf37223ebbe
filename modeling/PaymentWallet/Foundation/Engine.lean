import PaymentWallet.Foundation.Program

/-! Database transactions over a store with row locks. Statements compute the
rows they write, a transaction keeps them to itself until it commits, and every
key a statement touches stays locked until then. Reads marked `plain` see the
committed store and lock nothing. `Replay` runs a transaction alone from one
store; its frame rule is the whole argument for strict two-phase locking. -/
namespace Foundation

/-- `exec` answers a statement on a store and lists the row images it writes;
`keys` are the rows and index entries it locks there. -/
structure Engine (D W S : Type) (R : S → Type) (K ε : Type) where
  apply : D → W → D
  exec : (s : S) → D → Except ε (R s × List W)
  plain : S → Bool
  keys : S → D → List K

namespace Engine
variable {D W S K ε α β : Type} {R : S → Type}

section Semantics
variable (E : Engine D W S R K ε)

/-- The store as the owner of the uncommitted writes sees it. -/
def view (d : D) (writes : List W) : D := writes.foldl E.apply d

@[simp] theorem view_nil (d : D) : E.view d [] = d := rfl

@[simp] theorem view_cons (d : D) (w : W) (ws : List W) :
    E.view d (w :: ws) = E.view (E.apply d w) ws := rfl

theorem view_append (d : D) (first second : List W) :
    E.view d (first ++ second) = E.view (E.view d first) second :=
  List.foldl_append

/-- The store a statement of a transaction is answered on. -/
def source (s : S) (d v : D) : D := if E.plain s then d else v

/-- Runs a transaction body alone: `d` is the committed store, `v` its view. -/
def run (d : D) : Program S R ε α → D → Except ε (α × D)
  | .pure value, v => .ok (value, v)
  | .throw error, _ => .error error
  | .call s next, v =>
    match E.exec s (E.source s d v) with
    | .error error => .error error
    | .ok (reply, writes) => run d (next reply) (E.view v writes)

/-- Runs transactions one after the other, each from the store the previous left. -/
def runAll {C : Type} {Out : C → Type} (code : (c : C) → Program S R ε (Out c)) :
    List C → D → Except ε D
  | [], d => .ok d
  | c :: rest, d =>
    match E.run d (code c) d with
    | .error error => .error error
    | .ok (_, d') => runAll code rest d'

/-- Partial correctness of a transaction body. A plain read may be older than
the commit, so its reply is only known to be `Valid`. -/
def wp (Valid : (s : S) → R s → D → Prop) (d : D) :
    Program S R ε α → D → (α → D → Prop) → Prop
  | .pure value, v, Q => Q value v
  | .throw _, _, _ => True
  | .call s next, v, Q =>
    if E.plain s then ∀ reply, Valid s reply d → wp Valid d (next reply) v Q
    else ∀ reply writes, E.exec s v = .ok (reply, writes) →
      wp Valid d (next reply) (E.view v writes) Q

/-- `Replay origin d held p ws`: alone on `d`, and touching only `held`,
`origin` can reach `p` with the writes `ws`. -/
inductive Replay (Valid : (s : S) → R s → D → Prop) (origin : Program S R ε α) (d : D)
    (held : List K) : Program S R ε α → List W → Prop where
  | start : Replay Valid origin d held origin []
  | read : Replay Valid origin d held (.call s next) ws → E.plain s = true → Valid s reply d →
      Replay Valid origin d held (next reply) ws
  | write : Replay Valid origin d held (.call s next) ws → E.plain s = false →
      (∀ k ∈ E.keys s (E.view d ws), k ∈ held) →
      E.exec s (E.view d ws) = .ok (reply, more) →
      Replay Valid origin d held (next reply) (ws ++ more)

end Semantics

/-- Locks protect what statements depend on: a statement reads and writes only
at its keys. `Same k` says that two stores agree at `k`. -/
structure Locking (E : Engine D W S R K ε) (Same : K → D → D → Prop) : Prop where
  equivalence : ∀ k, Equivalence (Same k)
  exec_same : ∀ {s d d' reply ws}, E.plain s = false → E.exec s d = .ok (reply, ws) →
    (∀ k ∈ E.keys s d, Same k d d') → E.exec s d' = .ok (reply, ws)
  keys_same : ∀ {s d d' reply ws}, E.plain s = false → E.exec s d = .ok (reply, ws) →
    (∀ k ∈ E.keys s d, Same k d d') → E.keys s d' = E.keys s d
  write_local : ∀ {s d reply ws k}, E.plain s = false → E.exec s d = .ok (reply, ws) →
    k ∉ E.keys s d → Same k d (E.view d ws)
  write_same : ∀ {s d d' reply ws k}, E.plain s = false → E.exec s d = .ok (reply, ws) →
    (∀ k ∈ E.keys s d, Same k d d') → Same k d d' → Same k (E.view d ws) (E.view d' ws)

/-- What a plain read tells about every later store. Only `good` statements,
those the transactions at hand perform, have to respect it. -/
structure Stability (E : Engine D W S R K ε) (good : S → Prop)
    (Valid : (s : S) → R s → D → Prop) (Grows : D → D → Prop) : Prop where
  refl : ∀ d, Grows d d
  trans : ∀ {a b c}, Grows a b → Grows b c → Grows a c
  exec_grows : ∀ {s d reply ws}, good s → E.plain s = false → E.exec s d = .ok (reply, ws) →
    Grows d (E.view d ws)
  read_valid : ∀ {s d reply ws}, good s → E.plain s = true → E.exec s d = .ok (reply, ws) →
    Valid s reply d
  valid_mono : ∀ {s d d' reply}, good s → Valid s reply d → Grows d d' → Valid s reply d'

section WP
variable {E : Engine D W S R K ε} {Valid : (s : S) → R s → D → Prop} {d v : D}

theorem wp_bind {p : Program S R ε α} {f : α → Program S R ε β} {Q : β → D → Prop} :
    E.wp Valid d (p.bind f) v Q ↔ E.wp Valid d p v fun value v' => E.wp Valid d (f value) v' Q := by
  induction p generalizing v with
  | pure value => rfl
  | throw error => rfl
  | call s next ih => simp only [Program.call_bind, wp, ih]

theorem wp_mono {p : Program S R ε α} {P Q : α → D → Prop} (h : E.wp Valid d p v P)
    (weaker : ∀ value v', P value v' → Q value v') : E.wp Valid d p v Q := by
  induction p generalizing v with
  | pure value => exact weaker _ _ h
  | throw error => trivial
  | call s next ih =>
    simp only [wp] at h ⊢
    split
    · rw [if_pos ‹_›] at h
      exact fun reply valid => ih reply (h reply valid)
    · rw [if_neg ‹_›] at h
      exact fun reply writes exec => ih reply (h reply writes exec)

theorem wp_and {p : Program S R ε α} {P Q : α → D → Prop} (first : E.wp Valid d p v P)
    (second : E.wp Valid d p v Q) : E.wp Valid d p v fun value v' => P value v' ∧ Q value v' := by
  induction p generalizing v with
  | pure value => exact ⟨first, second⟩
  | throw error => trivial
  | call s next ih =>
    simp only [wp] at first second ⊢
    split
    · rw [if_pos ‹_›] at first second
      exact fun reply valid => ih reply (first reply valid) (second reply valid)
    · rw [if_neg ‹_›] at first second
      exact fun reply writes exec => ih reply (first reply writes exec) (second reply writes exec)

theorem wp_trivial (p : Program S R ε α) : E.wp Valid d p v fun _ _ => True := by
  induction p generalizing v with
  | pure value => trivial
  | throw error => trivial
  | call s next ih =>
    simp only [wp]
    split
    · exact fun reply _ => ih reply
    · exact fun reply _ _ => ih reply

theorem wp_grows {Grows : D → D → Prop} {good : S → Prop} (stable : E.Stability good Valid Grows)
    {p : Program S R ε α} {Q : α → D → Prop} (uses : p.All good) (h : E.wp Valid d p v Q) :
    E.wp Valid d p v fun value v' => Q value v' ∧ Grows v v' := by
  induction p generalizing v with
  | pure value => exact ⟨h, stable.refl v⟩
  | throw error => trivial
  | call s next ih =>
    simp only [wp] at h ⊢
    split
    · rw [if_pos ‹_›] at h
      exact fun reply valid => ih reply (uses.2 reply) (h reply valid)
    · rw [if_neg ‹_›] at h
      intro reply writes exec
      have grown := stable.exec_grows uses.1 (Bool.not_eq_true _ ▸ ‹¬ E.plain s = true›) exec
      exact wp_mono (ih reply (uses.2 reply) (h reply writes exec)) fun _ _ post =>
        ⟨post.1, stable.trans grown post.2⟩

/-- What every locking statement keeps is kept by a transaction. -/
theorem wp_keeps {Inv : D → Prop}
    (keeps : ∀ {s d reply writes}, E.plain s = false → E.exec s d = .ok (reply, writes) → Inv d →
      Inv (E.view d writes))
    (p : Program S R ε α) (inv : Inv v) : E.wp Valid d p v fun _ v' => Inv v' := by
  induction p generalizing v with
  | pure value => exact inv
  | throw error => trivial
  | call s next ih =>
    simp only [wp]
    split
    · exact fun reply _ => ih reply inv
    · exact fun reply writes exec =>
        ih reply (keeps (Bool.not_eq_true _ ▸ ‹¬ E.plain s = true›) exec inv)

/-- A run alone meets the precondition. -/
theorem wp_run {p : Program S R ε α} {Q : α → D → Prop} {value : α} {v' : D}
    (unread : ∀ {s d reply ws}, E.plain s = true → E.exec s d = .ok (reply, ws) → ws = [])
    (valid : ∀ {s reply}, E.plain s = true → E.exec s d = .ok (reply, []) → Valid s reply d)
    (h : E.wp Valid d p v Q) (ran : E.run d p v = .ok (value, v')) : Q value v' := by
  induction p generalizing v with
  | pure value =>
    cases ran
    exact h
  | throw error => cases ran
  | call s next ih =>
    simp only [run] at ran
    simp only [wp] at h
    split at ran
    · cases ran
    · rename_i reply writes exec
      cases plain : E.plain s with
      | true =>
        simp only [source, plain, if_true] at exec h
        obtain rfl := unread plain exec
        exact ih reply (h reply (valid plain exec)) ran
      | false =>
        simp only [source, plain, Bool.false_eq_true, if_false] at exec h
        exact ih reply (h reply writes exec) ran

theorem run_bind {p : Program S R ε α} {f : α → Program S R ε β} :
    E.run d (p.bind f) v = (E.run d p v).bind fun outcome => E.run d (f outcome.1) outcome.2 := by
  induction p generalizing v with
  | pure value => rfl
  | throw error => rfl
  | call s next ih =>
    simp only [Program.call_bind, run]
    cases E.exec s (E.source s d v) with
    | error error => rfl
    | ok outcome => exact ih _

/-- A transaction of one locking statement. -/
theorem run_perform {s : S} (locked : E.plain s = false) :
    E.run d (Program.perform s) v = (E.exec s v).map fun outcome =>
      (outcome.1, E.view v outcome.2) := by
  simp only [Program.perform, run, source, locked, Bool.false_eq_true, if_false]
  cases E.exec s v <;> rfl

/-- Total correctness of a transaction alone: it returns, and its result satisfies `Q`. -/
def Returns (E : Engine D W S R K ε) (d : D) (p : Program S R ε α) (v : D)
    (Q : α → D → Prop) : Prop :=
  ∃ value v', E.run d p v = .ok (value, v') ∧ Q value v'

theorem returns_pure {value : α} {Q : α → D → Prop} :
    E.Returns d (.pure value) v Q ↔ Q value v := by
  constructor
  · rintro ⟨_, _, ⟨⟩, holds⟩
    exact holds
  · exact fun holds => ⟨value, v, rfl, holds⟩

theorem returns_throw {error : ε} {Q : α → D → Prop} : ¬ E.Returns d (.throw error) v Q := by
  rintro ⟨_, _, ⟨⟩, _⟩

theorem returns_bind {p : Program S R ε α} {f : α → Program S R ε β} {Q : β → D → Prop} :
    E.Returns d (p.bind f) v Q ↔ E.Returns d p v fun value v' => E.Returns d (f value) v' Q := by
  simp only [Returns, run_bind]
  cases E.run d p v with
  | error error => simp [Except.bind]
  | ok outcome =>
    obtain ⟨value, v'⟩ := outcome
    simp only [Except.bind, Except.ok.injEq, Prod.mk.injEq]
    exact ⟨fun rest => ⟨value, v', ⟨rfl, rfl⟩, rest⟩, fun ⟨_, _, ⟨rfl, rfl⟩, rest⟩ => rest⟩

theorem returns_perform {s : S} {Q : R s → D → Prop} (locked : E.plain s = false) :
    E.Returns d (Program.perform s) v Q ↔ ∃ reply writes, E.exec s v = .ok (reply, writes) ∧
      Q reply (E.view v writes) := by
  simp only [Returns, run_perform locked]
  cases E.exec s v with
  | error error => simp [Except.map]
  | ok outcome =>
    obtain ⟨reply, writes⟩ := outcome
    simp only [Except.map, Except.ok.injEq, Prod.mk.injEq]
    exact ⟨fun ⟨_, _, ⟨rfl, rfl⟩, holds⟩ => ⟨reply, writes, ⟨rfl, rfl⟩, holds⟩,
      fun ⟨_, _, ⟨rfl, rfl⟩, holds⟩ => ⟨reply, _, ⟨rfl, rfl⟩, holds⟩⟩

end WP

namespace Replay
variable {E : Engine D W S R K ε} {Valid : (s : S) → R s → D → Prop} {Same : K → D → D → Prop}
  {Grows : D → D → Prop} {good : S → Prop} {origin p : Program S R ε α} {d d' : D}
  {held more : List K} {ws : List W}

theorem weaken (replay : Replay E Valid origin d held p ws) (sub : ∀ k ∈ held, k ∈ more) :
    Replay E Valid origin d more p ws := by
  induction replay with
  | start => exact .start
  | read _ plain valid ih => exact .read ih plain valid
  | write _ locked keys exec ih => exact .write ih locked (fun k hk => sub k (keys k hk)) exec

theorem all (replay : Replay E Valid origin d held p ws) (uses : origin.All good) : p.All good := by
  induction replay with
  | start => exact uses
  | read _ _ _ ih => exact ih.2 _
  | write _ _ _ _ ih => exact ih.2 _

/-- Writes stay within the held keys. -/
theorem write_local (lawful : E.Locking Same) (replay : Replay E Valid origin d held p ws)
    (free : k ∉ held) : Same k d (E.view d ws) := by
  induction replay with
  | start => exact (lawful.equivalence k).refl d
  | read _ _ _ ih => exact ih
  | write _ locked keys exec ih =>
    rw [view_append]
    exact (lawful.equivalence k).trans ih
      (lawful.write_local locked exec fun member => free (keys k member))

theorem grows (stable : E.Stability good Valid Grows) (uses : origin.All good)
    (replay : Replay E Valid origin d held p ws) : Grows d (E.view d ws) := by
  induction replay with
  | start => exact stable.refl d
  | read _ _ _ ih => exact ih
  | write previous locked _ exec ih =>
    rw [view_append]
    exact stable.trans ih (stable.exec_grows (previous.all uses).1 locked exec)

/-- The frame rule: a store that agrees on the held keys replays the same run,
to a view that agrees wherever the two stores did. -/
theorem frame (lawful : E.Locking Same) (stable : E.Stability good Valid Grows)
    (uses : origin.All good) (replay : Replay E Valid origin d held p ws)
    (same : ∀ k ∈ held, Same k d d') (grows : Grows d d') :
    Replay E Valid origin d' held p ws ∧ ∀ k, Same k d d' →
      Same k (E.view d ws) (E.view d' ws) := by
  induction replay with
  | start => exact ⟨.start, fun _ h => h⟩
  | read previous plain valid ih =>
    exact ⟨.read ih.1 plain (stable.valid_mono (previous.all uses).1 valid grows), ih.2⟩
  | @write s next ws reply written previous locked keys exec ih =>
    have agree : ∀ k ∈ E.keys s (E.view d ws), Same k (E.view d ws) (E.view d' ws) :=
      fun k hk => ih.2 k (same k (keys k hk))
    refine ⟨.write ih.1 locked ?_ (lawful.exec_same locked exec agree), fun k hk => ?_⟩
    · rw [lawful.keys_same locked exec agree]
      exact keys
    · rw [view_append, view_append]
      exact lawful.write_same locked exec agree (ih.2 k hk)

theorem run (replay : Replay E Valid origin d held p ws)
    (exact : ∀ s reply, E.plain s = true → Valid s reply d → E.exec s d = .ok (reply, [])) :
    E.run d origin d = E.run d p (E.view d ws) := by
  induction replay with
  | start => rfl
  | read _ plain valid ih =>
    rw [ih]
    simp only [Engine.run, source, plain, if_true, exact _ _ plain valid, view_nil]
  | write _ locked _ exec ih =>
    rw [ih, view_append]
    simp only [Engine.run, source, locked, Bool.false_eq_true, if_false, exec]

theorem wp (replay : Replay E Valid origin d held p ws) (start : E.wp Valid d origin d Q) :
    E.wp Valid d p (E.view d ws) Q := by
  induction replay with
  | start => exact start
  | read _ plain valid ih =>
    simp only [Engine.wp, plain, if_true] at ih
    exact ih _ valid
  | write _ locked _ exec ih =>
    simp only [Engine.wp, locked, Bool.false_eq_true, if_false] at ih
    rw [view_append]
    exact ih _ _ exec

end Replay
end Engine
end Foundation
