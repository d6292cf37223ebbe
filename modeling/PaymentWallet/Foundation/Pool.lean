import PaymentWallet.Foundation.World
import Mathlib.Logic.Relation

/-! A connection pool. An open transaction holds one connection; a query that does
not run on it, also one asked for within the transaction, needs one more while it
lasts. The pool is stuck when all connections are held by transactions that need
another for their next step. -/
namespace Foundation
variable {D W S K ε C X Ext Req Resp : Type} {R : S → Type} {Out : C → Type} {Y : X → Type}

/-- What a connection is taken for. -/
inductive Use where
  | transaction | query
deriving DecidableEq

/-- The steps that need a connection of their own: steps outside of a transaction,
and statements of a transaction's body. -/
structure Queries (S X : Type) where
  outside : X → Bool
  statement : S → Bool

section Phases
variable (queries : Queries S X)

def Phase.isOpen : Phase W S R K ε C Out X Y Resp → Bool
  | .running _ => false
  | .inTx .. => true

/-- The next step needs a connection of its own. -/
def Phase.Asks : Phase W S R K ε C Out X Y Resp → Prop
  | .running (.call (.outside x) _) => queries.outside x
  | .inTx _ (.call s _) _ _ _ => queries.statement s
  | _ => False

/-- The body can still come to a query that needs a connection of its own. -/
def Ahead {α : Type} (body : Program S R ε α) : Prop :=
  ¬ body.All fun s => queries.statement s = false

def Phase.Ahead : Phase W S R K ε C Out X Y Resp → Prop
  | .running _ => False
  | .inTx _ body _ _ _ => Foundation.Ahead queries body

theorem Phase.Asks.ahead {phase : Phase W S R K ε C Out X Y Resp} (asks : phase.Asks queries)
    (isOpen : phase.isOpen) : phase.Ahead queries := by
  cases phase with
  | running => cases isOpen
  | inTx c body =>
    cases body with
    | pure | throw => cases asks
    | call s rest => exact fun none => absurd asks (Bool.eq_false_iff.mp none.1)

end Phases

/-- `holders` are the processes that hold a connection, with what they hold it for. -/
structure Pool (D W S : Type) (R : S → Type) (K ε C : Type) (Out : C → Type) (X : Type)
    (Y : X → Type) (Ext Req Resp : Type) where
  world : World D W S R K ε C Out X Y Ext Req Resp
  holders : List (Nat × Use)

namespace Pool
variable (M : System D W S R K ε C Out X Y Ext Req Resp)
  (permit : Shared D C Ext → Label C X Req ε → Prop) (queries : Queries S X) (size : Nat)

/-- What becomes of the connections when process `pid` moves to another phase. -/
inductive Exchange (pid : Nat) (phase phase' : Phase W S R K ε C Out X Y Resp)
    (holders : List (Nat × Use)) :
    List (Nat × Use) → Prop where
  | keep : phase'.isOpen = phase.isOpen → ¬ phase.Asks queries →
      Exchange pid phase phase' holders holders
  | answer : phase'.isOpen = phase.isOpen → phase.Asks queries → (pid, .query) ∈ holders →
      Exchange pid phase phase' holders (holders.erase (pid, .query))
  | opens : phase.isOpen = false → phase'.isOpen = true → holders.length < size →
      Exchange pid phase phase' holders ((pid, .transaction) :: holders)
  | close : phase.isOpen = true → phase'.isOpen = false →
      Exchange pid phase phase' holders (holders.filter (·.1 ≠ pid))

/-- A step of the system with its connections. `allow` restricts the opening of
transactions, in the runs considered. -/
inductive Step (allow : Pool D W S R K ε C Out X Y Ext Req Resp → C → Prop)
    (p : Pool D W S R K ε C Out X Y Ext Req Resp) :
    Pool D W S R K ε C Out X Y Ext Req Resp → Prop where
  | take : p.world.procs pid = some (request, phase) → phase.Asks queries →
      (pid, .query) ∉ p.holders →
      p.holders.length < size → Step allow p ⟨p.world, (pid, .query) :: p.holders⟩
  | move : M.Step permit p.world w → p.world.procs pid = some (request, phase) →
      w.procs pid = some (request, phase') → phase ≠ phase' →
      (∀ c next, phase = .running (.call (.transact c) next) → allow p c) →
      Exchange queries size pid phase phase' p.holders holders' → Step allow p ⟨w, holders'⟩
  | idle : M.Step permit p.world w →
      (∀ pid, p.world.procs pid ≠ none → w.procs pid = p.world.procs pid) →
      Step allow p ⟨w, p.holders⟩

def Reaches (allow : Pool D W S R K ε C Out X Y Ext Req Resp → C → Prop) :
    Pool D W S R K ε C Out X Y Ext Req Resp → Pool D W S R K ε C Out X Y Ext Req Resp → Prop :=
  Relation.ReflTransGen (Step M permit queries size allow)

/-- No transaction is open, and no connection in use. -/
def init (db : D) (ext : Ext) : Pool D W S R K ε C Out X Y Ext Req Resp := ⟨World.init db ext, []⟩

/-- All connections are held by transactions whose next step needs another. -/
def Stuck (p : Pool D W S R K ε C Out X Y Ext Req Resp) : Prop :=
  p.holders.length = size ∧ ∀ holder ∈ p.holders, holder.2 = .transaction ∧
    ∃ request phase, p.world.procs holder.1 = some (request, phase) ∧
      phase.isOpen ∧ phase.Asks queries

/-- The connection belongs to a transaction that can still come to such a query. -/
def Blocking (w : World D W S R K ε C Out X Y Ext Req Resp) (holder : Nat × Use) : Prop :=
  holder.2 = .transaction ∧ ∃ request phase,
    w.procs holder.1 = some (request, phase) ∧ phase.Ahead queries

open Classical in
/-- How many connections transactions hold that can still come to such a query. -/
noncomputable def blocked (p : Pool D W S R K ε C Out X Y Ext Req Resp) : Nat :=
  p.holders.countP fun holder => decide (Blocking queries p.world holder)

/-- Transactions that can come to such a query open only while they leave a
connection to others. -/
def Spares (p : Pool D W S R K ε C Out X Y Ext Req Resp) (c : C) : Prop :=
  Ahead queries (M.code c) → p.blocked queries + 1 < size

section Spare
variable {M permit queries size} {w w' : World D W S R K ε C Out X Y Ext Req Resp}
  {phase phase' : Phase W S R K ε C Out X Y Resp} {holders holders' : List (Nat × Use)}

/-- Every connection held for a transaction is held by one that is open. -/
def Linked (w : World D W S R K ε C Out X Y Ext Req Resp) (holders : List (Nat × Use)) : Prop :=
  ∀ pid, (pid, .transaction) ∈ holders → ∃ request phase,
    w.procs pid = some (request, phase) ∧ phase.isOpen

/-- A step within one transaction brings no new query ahead. -/
theorem ahead_next (next : M.Next pid σ phase phase') (same : phase'.isOpen = phase.isOpen)
    (ahead : phase'.Ahead queries) : phase.Ahead queries := by
  cases next with
  | outside => exact ahead
  | begin | commit | fail => cases same
  | read | write => exact fun none => ahead (none.2 _)

theorem Blocking.congr {holder : Nat × Use} (same : w'.procs holder.1 = w.procs holder.1) :
    Blocking queries w' holder ↔ Blocking queries w holder := by
  unfold Blocking
  rw [same]

/-- What the pool keeps to: connections belong to open transactions, and not all of
them to such that can still need another. -/
structure Spare (queries : Queries S X) (size : Nat)
    (p : Pool D W S R K ε C Out X Y Ext Req Resp) : Prop where
  linked : Linked p.world p.holders
  room : p.blocked queries < size

open Classical in
theorem blocked_le (p : Pool D W S R K ε C Out X Y Ext Req Resp)
    {p' : Pool D W S R K ε C Out X Y Ext Req Resp} (fewer : p'.holders.Sublist p.holders)
    (less : ∀ holder ∈ p'.holders, Blocking queries p'.world holder →
      Blocking queries p.world holder) :
    p'.blocked queries ≤ p.blocked queries := by
  refine Nat.le_trans (List.countP_mono_left fun holder member blocking => ?_) fewer.countP_le
  exact decide_eq_true (less holder member (of_decide_eq_true blocking))

open Classical in
/-- A connection taken for a query blocks nothing. -/
theorem blocked_query (w : World D W S R K ε C Out X Y Ext Req Resp) (pid : Nat) :
    blocked queries ⟨w, (pid, .query) :: holders⟩ = blocked queries ⟨w, holders⟩ :=
  List.countP_cons_of_neg fun blocking => by cases (of_decide_eq_true blocking).1

open Classical in
/-- A connection taken for a transaction blocks if a query is ahead of it. -/
theorem blocked_transaction (holders : List (Nat × Use))
    (w : World D W S R K ε C Out X Y Ext Req Resp) (pid : Nat) :
    blocked queries ⟨w, (pid, .transaction) :: holders⟩ = blocked queries ⟨w, holders⟩ ∨
    Blocking queries w (pid, .transaction) ∧
      blocked queries ⟨w, (pid, .transaction) :: holders⟩ = blocked queries ⟨w, holders⟩ + 1 := by
  by_cases blocking : Blocking queries w (pid, .transaction)
  · exact .inr ⟨blocking, List.countP_cons_of_pos (decide_eq_true blocking)⟩
  · exact .inl (List.countP_cons_of_neg (by simpa using blocking))

variable {allow : Pool D W S R K ε C Out X Y Ext Req Resp → C → Prop}
  {p p' : Pool D W S R K ε C Out X Y Ext Req Resp}

theorem Spare.take (spare : Spare queries size p) (pid : Nat) :
    Spare queries size ⟨p.world, (pid, .query) :: p.holders⟩ :=
  ⟨fun other member => spare.linked other (List.mem_of_ne_of_mem (by simp) member),
    Nat.lt_of_le_of_lt (Nat.le_of_eq (blocked_query p.world pid)) spare.room⟩

theorem Spare.idle (spare : Spare queries size p)
    (stays : ∀ pid, p.world.procs pid ≠ none → w.procs pid = p.world.procs pid) :
    Spare queries size ⟨w, p.holders⟩ := by
  have same : ∀ pid, (pid, .transaction) ∈ p.holders → w.procs pid = p.world.procs pid := by
    intro pid member
    obtain ⟨request, phase, found, _⟩ := spare.linked pid member
    exact stays pid (by simp [found])
  refine ⟨fun pid member => same pid member ▸ spare.linked pid member,
    Nat.lt_of_le_of_lt (blocked_le p (.refl _) ?_) spare.room⟩
  rintro ⟨pid, use⟩ member blocking
  obtain rfl : use = .transaction := blocking.1
  exact (Blocking.congr (same pid member)).mp blocking

/-- One process moves, within its transaction or outside of any. -/
theorem Spare.within (spare : Spare queries size p)
    (found : p.world.procs pid = some (request, phase))
    (found' : w.procs pid = some (request, phase'))
    (others : ∀ other ≠ pid, w.procs other = p.world.procs other)
    (same : phase'.isOpen = phase.isOpen) (ahead : phase'.Ahead queries → phase.Ahead queries)
    (fewer : holders.Sublist p.holders) : Spare queries size ⟨w, holders⟩ := by
  refine ⟨fun other member => ?_, Nat.lt_of_le_of_lt (blocked_le p fewer ?_) spare.room⟩
  · obtain ⟨request', phase₁, was, isOpen⟩ := spare.linked other (fewer.subset member)
    by_cases here : other = pid
    · subst here
      cases found.symm.trans was
      exact ⟨request, phase', found', same.trans isOpen⟩
    · exact ⟨request', phase₁, (others other here).trans was, isOpen⟩
  · rintro ⟨other, use⟩ _ ⟨kind, request', phase₁, now, blocks⟩
    by_cases here : other = pid
    · subst here
      cases found'.symm.trans now
      exact ⟨kind, request, phase, found, ahead blocks⟩
    · exact ⟨kind, request', phase₁, (others other here).symm.trans now, blocks⟩

theorem Spare.close (spare : Spare queries size p)
    (others : ∀ other ≠ pid, w.procs other = p.world.procs other) :
    Spare queries size ⟨w, p.holders.filter (·.1 ≠ pid)⟩ := by
  refine ⟨fun other member => ?_,
    Nat.lt_of_le_of_lt (blocked_le p List.filter_sublist ?_) spare.room⟩
  · obtain ⟨member, different⟩ := List.mem_filter.mp member
    exact others other (of_decide_eq_true different) ▸ spare.linked other member
  · rintro ⟨other, use⟩ member blocking
    obtain ⟨_, different⟩ := List.mem_filter.mp member
    exact (Blocking.congr (others other (of_decide_eq_true different))).mp blocking

theorem Spare.opens (spare : Spare queries size p)
    (found : p.world.procs pid = some (request, phase))
    (found' : w.procs pid = some (request, phase'))
    (others : ∀ other ≠ pid, w.procs other = p.world.procs other)
    (shut : phase.isOpen = false) (isOpen : phase'.isOpen = true)
    (spares : phase'.Ahead queries → p.blocked queries + 1 < size) :
    Spare queries size ⟨w, (pid, .transaction) :: p.holders⟩ := by
  have elsewhere : ∀ other, (other, .transaction) ∈ p.holders → other ≠ pid := by
    rintro other member rfl
    obtain ⟨_, _, was, open_⟩ := spare.linked other member
    cases found.symm.trans was
    exact absurd open_ (by simp [shut])
  have fewer : Pool.blocked queries ⟨w, p.holders⟩ ≤ p.blocked queries := by
    refine blocked_le p (.refl _) ?_
    rintro ⟨other, use⟩ member blocking
    obtain rfl : use = .transaction := blocking.1
    exact (Blocking.congr (others other (elsewhere other member))).mp blocking
  refine ⟨fun other member => ?_, ?_⟩
  · rcases List.mem_cons.mp member with new | old
    · cases new
      exact ⟨request, phase', found', isOpen⟩
    · exact others other (elsewhere other old) ▸ spare.linked other old
  · rcases blocked_transaction p.holders w pid with same | ⟨blocking, more⟩
    · exact same ▸ Nat.lt_of_le_of_lt fewer spare.room
    · obtain ⟨_, _, _, now, ahead⟩ := blocking
      cases found'.symm.trans now
      have := spares ahead
      omega

theorem Spare.step (spare : Spare queries size p)
    (admits : ∀ {c}, allow p c → p.Spares M queries size c)
    (taken : Step M permit queries size allow p p') : Spare queries size p' := by
  cases taken with
  | @take pid => exact spare.take pid
  | idle _ stays => exact spare.idle stays
  | @move w pid request phase phase' holders' moved found found' differs admitted exchange =>
    have others : ∀ other ≠ pid, w.procs other = p.world.procs other := fun other different =>
      moved.alone (by simpa [found, found'] using differs.symm) different
    have next : M.Next pid p.world.shared phase phase' := by
      rcases moved.proc pid with same | ⟨_, idle, _⟩ | ⟨_, _, _, was, now, next⟩
      · exact absurd (by simpa [found, found'] using same) differs.symm
      · cases found.symm.trans idle
      · cases found.symm.trans was
        cases found'.symm.trans now
        exact next
    cases exchange with
    | keep same => exact spare.within found found' others same (ahead_next next same) (.refl _)
    | answer same =>
      exact spare.within found found' others same (ahead_next next same) List.erase_sublist
    | close => exact spare.close others
    | opens shut isOpen =>
      refine spare.opens found found' others shut isOpen fun ahead => ?_
      cases next with
      | begin => exact admits (admitted _ _ rfl) ahead
      | outside | read | write | commit | fail => simp_all [Phase.isOpen]

open Classical in
/-- Where transactions with a query ahead leave a connection to others, the pool is
never stuck. -/
theorem never_stuck (admits : ∀ {p c}, allow p c → p.Spares M queries size c) (room : 0 < size)
    (run : Reaches M permit queries size allow (init db ext) p) : ¬ p.Stuck queries size := by
  have spare : Spare queries size p := by
    induction run with
    | refl => exact ⟨fun _ member => (List.not_mem_nil member).elim, room⟩
    | tail _ last ih => exact ih.step admits last
  rintro ⟨full, waiting⟩
  have all : p.blocked queries = p.holders.length := by
    refine List.countP_eq_length.mpr fun holder member => decide_eq_true ?_
    obtain ⟨kind, request, phase, found, isOpen, asks⟩ := waiting holder member
    exact ⟨kind, request, phase, found, asks.ahead queries isOpen⟩
  have := spare.room
  omega

end Spare
end Pool
end Foundation
