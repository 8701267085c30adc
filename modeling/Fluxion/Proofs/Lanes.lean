import Fluxion.Proofs.Variables
import Mathlib.Data.List.Basic

/-!
# Lanes

Evaluation in batches is evaluation lane by lane. One evaluation of an expression under bindings
of batches is put beside the evaluations, one for each lane, of the same expression under the
numbers that the bindings hold there: it succeeds if all of these succeed, and then it is the
batch of their values.

## What the failures have in common

A batch stops at the first logarithm with a lane outside the domain, from left to right. The
evaluation of another lane may get past this logarithm and fail at a later one, or not at all. So
the failures are not compared, only that there is one: `LaneByLane` relates a batch to values on
all lanes, and a failure to a failure on some lane.

## Single numbers among batches

A number, and a batch with a single lane, serve every lane. The value of an expression is
therefore a batch of `n` lanes only if one of its variables stands for such a batch, and each
operation passes on what it has from either operand. This is kept apart from what the lanes hold
(`Spans` and `Serves`). Operands that serve no common number of lanes have no result, and no value
is made up for them (`Batch.exists_zipWith_iff`); under bindings with a width there are none.

## Main definitions

* `Batch.lane?`, `Bindings.lane` — the number of a batch, and the numbers of bindings, on a lane
* `Bindings.Width` — the number of lanes of the variables of an expression
* `LaneByLane` — an evaluation in batches beside the evaluations on the lanes

## Main results

* `Batch.exists_zipWith_iff` — which batches an operation can be carried out on
* `Expr.laneByLane` — evaluation in batches is evaluation lane by lane
* `Bindings.Width.exists_of_serves`, `Bindings.Width.unique` — batches have one width
* `Bindings.evaluateBatch_lanes` — the values, and when there are any
-/

namespace Fluxion

/-! ### The numbers of a batch -/

namespace Batch

variable {α : Type} {n i : Nat} {u v w : Batch α} {a b : α}

/-- The number on a lane. One number, and a batch with a single lane, have it on every lane. -/
def lane? (i : Nat) : Batch α → Option α
  | single a => some a
  | lanes [a] => some a
  | lanes as => as[i]?

/-- A batch that has a number for each of `n` lanes. -/
inductive Serves (n : Nat) : Batch α → Prop where
  | number (a : α) : Serves n (single a)
  | one (a : α) : Serves n (lanes [a])
  | each {as : List α} (h : as.length = n) : Serves n (lanes as)

/-- A batch of exactly `n` lanes. -/
def Spans (n : Nat) (u : Batch α) : Prop := ∃ as, u = lanes as ∧ as.length = n

theorem lane?_lanes {as : List α} (hi : i < as.length) : (lanes as).lane? i = as[i]? := by
  match as, hi with
  | [a], hi => rw [Nat.lt_one_iff.mp hi]; rfl
  | a :: a' :: as, _ => rfl

theorem Serves.exists_lane (h : u.Serves n) (hi : i < n) : ∃ a, u.lane? i = some a := by
  cases h with
  | number a => exact ⟨a, rfl⟩
  | one a => exact ⟨a, rfl⟩
  | @each as h =>
    subst h
    exact ⟨as[i], (lane?_lanes hi).trans (List.getElem?_eq_getElem hi)⟩

/-- What a batch that serves some lanes consists of is on one of them. -/
theorem Serves.mem_toList_iff (h : u.Serves n) (hn : 0 < n) :
    a ∈ u.toList ↔ ∃ i < n, u.lane? i = some a := by
  cases h with
  | number b | one b =>
    simp only [toList, List.mem_singleton, lane?, Option.some.injEq]
    exact ⟨fun h => ⟨0, hn, h.symm⟩, fun ⟨_, _, h⟩ => h.symm⟩
  | @each as h =>
    subst h
    refine List.mem_iff_getElem?.trans ⟨fun ⟨i, h⟩ => ?_, fun ⟨i, hi, h⟩ => ⟨i, ?_⟩⟩
    · obtain ⟨hi, -⟩ := List.getElem?_eq_some_iff.mp h
      exact ⟨i, hi, (lane?_lanes hi).trans h⟩
    · exact (lane?_lanes hi).symm.trans h

/-! ### Operations -/

theorem lane?_map (f : α → α) (u : Batch α) (i : Nat) : (u.map f).lane? i = (u.lane? i).map f := by
  match u with
  | single a => rfl
  | lanes [] => rfl
  | lanes [a] => rfl
  | lanes (a :: a' :: as) => exact List.getElem?_map (l := a :: a' :: as)

theorem Serves.map (h : u.Serves n) (f : α → α) : (u.map f).Serves n := by
  cases h with
  | number a => exact .number (f a)
  | one a => exact .one (f a)
  | each h => exact .each ((List.length_map f).trans h)

theorem Spans.map (h : u.Spans n) (f : α → α) : (u.map f).Spans n := by
  obtain ⟨as, rfl, h⟩ := h
  exact ⟨as.map f, rfl, (List.length_map f).trans h⟩

theorem single_zipWith (f : α → α → α) (a : α) (v : Batch α) :
    (single a).zipWith f v = .ok (v.map (f a)) := by
  cases v <;> rfl

theorem zipWith_one (f : α → α → α) (as : List α) (b : α) :
    (lanes as).zipWith f (lanes [b]) = .ok ((lanes as).map (f · b)) := by
  match as with
  | [] => rfl
  | [a] => rfl
  | a :: a' :: as => rfl

theorem zipWith_lanes (f : α → α → α) {as bs : List α} (h : as.length = bs.length) :
    (lanes as).zipWith f (lanes bs) = .ok (lanes (as.zipWith f bs)) := by
  match as, bs, h with
  | [], [], _ => rfl
  | [a], [b], _ => rfl
  | a :: a' :: as, b :: b' :: bs, h => exact if_pos h

/-- Batches of different lengths, neither of them one, have no result. -/
theorem zipWith_mismatch (f : α → α → α) {as bs : List α} (has : as.length ≠ 1)
    (hbs : bs.length ≠ 1) (h : as.length ≠ bs.length) :
    (lanes as).zipWith f (lanes bs) = .error (.mismatch as.length bs.length) := by
  rw [zipWith]
  · exact if_neg h
  · rintro a rfl
    exact has rfl
  · rintro b rfl
    exact hbs rfl

/-- An operation on two batches applies it to one number and the other batch, or to two batches
lane by lane. -/
theorem zipWith_cases (f : α → α → α) (hu : u.Serves n) (hv : v.Serves n) :
    (∃ a, (∀ i, u.lane? i = some a) ∧ u.zipWith f v = .ok (v.map (f a))) ∨
      (∃ b, (∀ i, v.lane? i = some b) ∧ u.zipWith f v = .ok (u.map (f · b))) ∨
        ∃ as bs, u = lanes as ∧ v = lanes bs ∧ as.length = n ∧ bs.length = n := by
  cases hu with
  | number a => exact .inl ⟨a, fun _ => rfl, single_zipWith f a v⟩
  | one a =>
    cases hv with
    | number b => exact .inr (.inl ⟨b, fun _ => rfl, rfl⟩)
    | one b => exact .inl ⟨a, fun _ => rfl, rfl⟩
    | each h => exact .inl ⟨a, fun _ => rfl, rfl⟩
  | @each as h =>
    cases hv with
    | number b => exact .inr (.inl ⟨b, fun _ => rfl, rfl⟩)
    | one b => exact .inr (.inl ⟨b, fun _ => rfl, zipWith_one f as b⟩)
    | @each bs h' => exact .inr (.inr ⟨as, bs, rfl, rfl, h, h'⟩)

/-- Batches that serve the same lanes have a result, which serves them. -/
theorem Serves.exists_zipWith (hu : u.Serves n) (hv : v.Serves n) (f : α → α → α) :
    ∃ w, u.zipWith f v = .ok w ∧ w.Serves n := by
  rcases zipWith_cases f hu hv with ⟨a, -, h⟩ | ⟨b, -, h⟩ | ⟨as, bs, rfl, rfl, has, hbs⟩
  · exact ⟨_, h, hv.map (f a)⟩
  · exact ⟨_, h, hu.map (f · b)⟩
  · refine ⟨_, zipWith_lanes f (has.trans hbs.symm), .each ?_⟩
    rw [List.length_zipWith, has, hbs, Nat.min_self]

/-- **An operation has a result** just when there is a number of lanes that both operands serve:
batches of different lengths have none, unless one has a single lane. -/
theorem exists_zipWith_iff (f : α → α → α) (u v : Batch α) :
    (∃ w, u.zipWith f v = .ok w) ↔ ∃ n, u.Serves n ∧ v.Serves n := by
  refine ⟨fun ⟨w, hw⟩ => ?_, fun ⟨n, hu, hv⟩ => (hu.exists_zipWith hv f).imp fun w h => h.1⟩
  match u, v with
  | single a, single b => exact ⟨1, .number a, .number b⟩
  | single a, lanes bs => exact ⟨bs.length, .number a, .each rfl⟩
  | lanes as, single b => exact ⟨as.length, .each rfl, .number b⟩
  | lanes as, lanes bs =>
    by_cases has : as.length = 1
    · obtain ⟨a, rfl⟩ := List.length_eq_one_iff.mp has
      exact ⟨bs.length, .one a, .each rfl⟩
    by_cases hbs : bs.length = 1
    · obtain ⟨b, rfl⟩ := List.length_eq_one_iff.mp hbs
      exact ⟨as.length, .each rfl, .one b⟩
    have hlength : as.length = bs.length := by
      by_contra hne
      rw [zipWith_mismatch f has hbs hne] at hw
      cases hw
    exact ⟨as.length, .each rfl, .each hlength.symm⟩

theorem lane?_zipWith {f : α → α → α} (hu : u.Serves n) (hv : v.Serves n)
    (hw : u.zipWith f v = .ok w) (hi : i < n) (ha : u.lane? i = some a)
    (hb : v.lane? i = some b) : w.lane? i = some (f a b) := by
  rcases zipWith_cases f hu hv with ⟨a', ha', h⟩ | ⟨b', hb', h⟩ | ⟨as, bs, rfl, rfl, has, hbs⟩
  · obtain rfl : a' = a := Option.some.inj ((ha' i).symm.trans ha)
    obtain rfl := Except.ok.inj (h.symm.trans hw)
    rw [lane?_map, hb, Option.map_some]
  · obtain rfl : b' = b := Option.some.inj ((hb' i).symm.trans hb)
    obtain rfl := Except.ok.inj (h.symm.trans hw)
    rw [lane?_map, ha, Option.map_some]
  · have hlength : (as.zipWith f bs).length = n := by
      rw [List.length_zipWith, has, hbs, Nat.min_self]
    obtain rfl := Except.ok.inj ((zipWith_lanes f (has.trans hbs.symm)).symm.trans hw)
    rw [lane?_lanes (has.symm ▸ hi)] at ha
    rw [lane?_lanes (hbs.symm ▸ hi)] at hb
    rw [lane?_lanes (hlength.symm ▸ hi), List.getElem?_zipWith, ha, hb]

theorem spans_zipWith_lanes {f : α → α → α} {as bs : List α} (has : as.length = n)
    (hbs : bs.length = n) (hw : (lanes as).zipWith f (lanes bs) = .ok w) : w.Spans n := by
  obtain rfl := Except.ok.inj ((zipWith_lanes f (has.trans hbs.symm)).symm.trans hw)
  exact ⟨_, rfl, by rw [List.length_zipWith, has, hbs, Nat.min_self]⟩

theorem Spans.zipWith_left {f : α → α → α} (hu : u.Spans n) (hv : v.Serves n)
    (hw : u.zipWith f v = .ok w) : w.Spans n := by
  obtain ⟨as, rfl, h⟩ := hu
  have hspans : (lanes as).Spans n := ⟨as, rfl, h⟩
  cases hv with
  | number b => exact Except.ok.inj hw ▸ hspans.map (f · b)
  | one b => exact Except.ok.inj ((zipWith_one f as b).symm.trans hw) ▸ hspans.map (f · b)
  | each h' => exact spans_zipWith_lanes h h' hw

theorem Spans.zipWith_right {f : α → α → α} (hv : v.Spans n) (hu : u.Serves n)
    (hw : u.zipWith f v = .ok w) : w.Spans n := by
  obtain ⟨bs, rfl, h⟩ := hv
  have hspans : (lanes bs).Spans n := ⟨bs, rfl, h⟩
  cases hu with
  | number a | one a => exact Except.ok.inj hw ▸ hspans.map (f a)
  | each h' => exact spans_zipWith_lanes h' h hw

end Batch

/-! ### One evaluation beside many -/

/-- An evaluation in batches beside the evaluations on `n` lanes: a batch that has the values of
all of them, or a failure, and one of them fails too. -/
inductive LaneByLane {α ε : Type} (n : Nat) (onLane : Nat → Except ε α) :
    Except ε (Batch α) → Prop where
  | ok {u : Batch α} (serves : u.Serves n)
      (holds : ∀ i < n, ∃ a, onLane i = .ok a ∧ u.lane? i = some a) : LaneByLane n onLane (.ok u)
  | error {failure failure' : ε} {i : Nat} (hi : i < n) (fails : onLane i = .error failure') :
      LaneByLane n onLane (.error failure)

namespace LaneByLane

variable {α ε : Type} {n i : Nat} {onLane : Nat → Except ε α} {r : Except ε (Batch α)}
  {u : Batch α}

/-- What follows is lane by lane if it is so after every batch. -/
theorem bind {next : Batch α → Except ε (Batch α)} {onLane' : Nat → α → Except ε α}
    (h : LaneByLane n onLane r)
    (hnext : ∀ u, u.Serves n → (∀ i < n, ∃ a, onLane i = .ok a ∧ u.lane? i = some a) →
      LaneByLane n (fun i => onLane i >>= onLane' i) (next u)) :
    LaneByLane n (fun i => onLane i >>= onLane' i) (r >>= next) := by
  cases h with
  | ok hserves holds => exact hnext _ hserves holds
  | error hi hfails => exact .error hi (by rw [hfails]; rfl)

theorem map (h : LaneByLane n onLane r) (f : α → α) :
    LaneByLane n (fun i => do return f (← onLane i)) (do return (← r).map f) := by
  refine h.bind fun u hserves holds => .ok (hserves.map f) fun i hi => ?_
  obtain ⟨a, ha, hlane⟩ := holds i hi
  exact ⟨f a, by rw [ha]; rfl, by rw [Batch.lane?_map, hlane, Option.map_some]⟩

theorem zipWith {onLane onLane' : Nat → Except (EvalError α) α}
    {r r' : Except (EvalError α) (Batch α)} (h : LaneByLane n onLane r)
    (h' : LaneByLane n onLane' r') (f : α → α → α) :
    LaneByLane n (fun i => do return f (← onLane i) (← onLane' i))
      (do (← r).zipWith f (← r')) := by
  refine h.bind fun u hu holds => ?_
  cases h' with
  | error hi hfails =>
    -- the first operand has a value on this lane, so it is the second that fails there
    obtain ⟨a, ha, -⟩ := holds _ hi
    exact .error hi (by rw [ha, hfails]; rfl)
  | @ok v hv holds' =>
    obtain ⟨w, hw, hserves⟩ := hu.exists_zipWith hv f
    show LaneByLane n _ (u.zipWith f v)
    rw [hw]
    refine .ok hserves fun i hi => ?_
    obtain ⟨a, ha, hlane⟩ := holds i hi
    obtain ⟨b, hb, hlane'⟩ := holds' i hi
    exact ⟨f a b, by rw [ha, hb]; rfl, Batch.lane?_zipWith hu hv hw hi hlane hlane'⟩

theorem mapError {δ : Type} (h : LaneByLane n onLane r) (g : ε → δ) (g' : Nat → ε → δ) :
    LaneByLane n (fun i => (onLane i).mapError (g' i)) (r.mapError g) := by
  cases h with
  | ok hserves holds =>
    refine .ok hserves fun i hi => ?_
    obtain ⟨a, ha, hlane⟩ := holds i hi
    exact ⟨a, by rw [ha]; rfl, hlane⟩
  | error hi hfails => exact .error hi (by rw [hfails]; rfl)

/-- A batch has the value of every lane. -/
theorem lane_of_ok (h : LaneByLane n onLane (.ok u)) (hi : i < n) :
    ∃ a, onLane i = .ok a ∧ u.lane? i = some a := by
  cases h with
  | ok _ holds => exact holds i hi

theorem serves_of_ok (h : LaneByLane n onLane (.ok u)) : u.Serves n := by
  cases h with
  | ok hserves _ => exact hserves

/-- There is a batch just when every lane has a value. -/
theorem exists_ok_iff (h : LaneByLane n onLane r) :
    (∃ u, r = .ok u) ↔ ∀ i < n, ∃ a, onLane i = .ok a := by
  cases h with
  | ok _ holds => exact iff_of_true ⟨_, rfl⟩ fun i hi => (holds i hi).imp fun a ha => ha.1
  | error hi hfails =>
    refine iff_of_false nofun fun hall => ?_
    obtain ⟨a, ha⟩ := hall _ hi
    rw [hfails] at ha
    cases ha

end LaneByLane

namespace Expr

variable {α : Type} [Arithmetic α] {n : Nat} {values : String → Option (Batch α)} {e : Expr α}
  {u : Batch α}

/-- The logarithm of a batch is taken lane by lane, unless one number is outside the domain. -/
theorem evalLogBatch_cases (u : Batch α) :
    (∀ a ∈ u.toList, Arithmetic.isNonpos a = false) ∧
        evalLogBatch u = .ok (u.map Arithmetic.log) ∨
      ∃ a ∈ u.toList, Arithmetic.isNonpos a = true ∧ ∃ err, evalLogBatch u = .error err := by
  rw [evalLogBatch]
  split
  · rename_i hnil
    refine .inl ⟨by simp [hnil], ?_⟩
    cases u with
    | single a => cases hnil
    | lanes as =>
      obtain rfl : as = [] := hnil
      rfl
  · rename_i a as hcons
    rw [hcons]
    cases h : (a :: as).any Arithmetic.isNonpos with
    | true =>
      obtain ⟨b, hb, hnonpos⟩ := List.any_eq_true.mp h
      exact .inr ⟨b, hb, hnonpos, _, if_pos rfl⟩
    | false => exact .inl ⟨by simpa [List.any_eq_false] using h, if_neg Bool.false_ne_true⟩

theorem eq_of_evalLogBatch {v : Batch α} (h : evalLogBatch u = .ok v) :
    v = u.map Arithmetic.log := by
  rcases evalLogBatch_cases u with ⟨-, hok⟩ | ⟨a, -, -, err, herr⟩
  · exact (Except.ok.inj (hok.symm.trans h)).symm
  · rw [herr] at h
    cases h

/-- The logarithm of a batch fails as soon as one lane is outside the domain. -/
theorem laneByLane_log {onLane : Nat → Except (EvalError α) α}
    {r : Except (EvalError α) (Batch α)} (hn : 0 < n) (h : LaneByLane n onLane r) :
    LaneByLane n (fun i => do evalLog (← onLane i)) (do evalLogBatch (← r)) := by
  refine h.bind fun u hserves holds => ?_
  rcases evalLogBatch_cases u with ⟨hdomain, hok⟩ | ⟨a, hmem, hnonpos, err, herr⟩
  · rw [hok]
    refine .ok (hserves.map _) fun i hi => ?_
    obtain ⟨a, ha, hlane⟩ := holds i hi
    have hpos := hdomain a ((hserves.mem_toList_iff hn).mpr ⟨i, hi, hlane⟩)
    refine ⟨Arithmetic.log a, ?_, by rw [Batch.lane?_map, hlane, Option.map_some]⟩
    rw [ha]
    exact if_neg (by rw [hpos]; nofun)
  · obtain ⟨i, hi, hlane⟩ := (hserves.mem_toList_iff hn).mp hmem
    obtain ⟨b, hb, hlane'⟩ := holds i hi
    obtain rfl : b = a := Option.some.inj (hlane'.symm.trans hlane)
    rw [herr]
    exact .error hi (by rw [hb]; exact if_pos hnonpos)

/-- **Evaluation in batches is evaluation lane by lane.** -/
theorem laneByLane (hn : 0 < n) (hvars : ∀ x ∈ e.vars, ∃ u, values x = some u ∧ u.Serves n) :
    LaneByLane n (fun i => e.eval fun x => (values x).bind (Batch.lane? i))
      (e.evalBatch values) := by
  induction e with
  | const c => exact .ok (.number c) fun i _ => ⟨c, rfl, rfl⟩
  | var x =>
    obtain ⟨u, hu, hserves⟩ := hvars x (List.mem_singleton.mpr rfl)
    rw [evalBatch, hu]
    refine .ok hserves fun i hi => ?_
    obtain ⟨a, ha⟩ := hserves.exists_lane hi
    exact ⟨a, by rw [eval, hu, Option.bind_some, ha], ha⟩
  | add l p ihl ihp | mul l p ihl ihp | pow l p ihl ihp =>
    exact (ihl fun x hx => hvars x (List.mem_append_left _ hx)).zipWith
      (ihp fun x hx => hvars x (List.mem_append_right _ hx)) _
  | log f ih => exact laneByLane_log hn (ih hvars)
  | sin f ih | cos f ih => exact (ih hvars).map _

/-- An expression has as many lanes as one of its variables. -/
theorem spans_of_evalBatch (hn : 0 < n)
    (hvars : ∀ x ∈ e.vars, ∃ u, values x = some u ∧ u.Serves n)
    (hwide : ∃ x ∈ e.vars, ∃ u, values x = some u ∧ u.Spans n) (h : e.evalBatch values = .ok u) :
    u.Spans n := by
  induction e generalizing u with
  | const c =>
    obtain ⟨x, hx, -⟩ := hwide
    cases hx
  | var x =>
    obtain ⟨y, hy, v, hv, hspans⟩ := hwide
    obtain rfl := List.mem_singleton.mp hy
    rw [evalBatch, hv] at h
    exact Except.ok.inj h ▸ hspans
  | add l p ihl ihp | mul l p ihl ihp | pow l p ihl ihp =>
    have hleft := fun x hx => hvars x (List.mem_append_left _ hx)
    have hright := fun x hx => hvars x (List.mem_append_right _ hx)
    obtain ⟨v, hv, h⟩ := ok_of_bind h
    obtain ⟨w, hw, h⟩ := ok_of_bind h
    have hserves : v.Serves n := LaneByLane.serves_of_ok (hv ▸ laneByLane hn hleft)
    have hserves' : w.Serves n := LaneByLane.serves_of_ok (hw ▸ laneByLane hn hright)
    obtain ⟨x, hx, hx'⟩ := hwide
    rcases List.mem_append.mp hx with hx | hx
    · exact (ihl hleft ⟨x, hx, hx'⟩ hv).zipWith_left hserves' h
    · exact (ihp hright ⟨x, hx, hx'⟩ hw).zipWith_right hserves h
  | log f ih =>
    obtain ⟨v, hv, h⟩ := ok_of_bind h
    have hspans := ih hvars hwide hv
    obtain rfl := eq_of_evalLogBatch h
    exact hspans.map _
  | sin f ih | cos f ih =>
    obtain ⟨v, hv, h⟩ := ok_of_bind h
    exact Except.ok.inj h ▸ (ih hvars hwide hv).map _

end Expr

/-! ### Bindings of batches -/

namespace Bindings

variable {α : Type} {bindings : Bindings (Batch α)} {e : Expr α} {n m : Nat}

/-- Bindings on a lane: every name has the number that its batch has there. -/
def lane (i : Nat) (bindings : Bindings (Batch α)) : Bindings α :=
  bindings.filterMap fun _ u => u.lane? i

theorem getElem?_lane (i : Nat) (x : String) :
    (bindings.lane i)[x]? = bindings[x]?.bind (Batch.lane? i) :=
  Std.TreeMap.getElem?_filterMap'

/-- The variables of an expression stand for numbers and for batches of `n` lanes or one, and at
least one of them for a batch of `n` lanes. -/
structure Width (bindings : Bindings (Batch α)) (e : Expr α) (n : Nat) : Prop where
  pos : 0 < n
  serves : ∀ x ∈ e.vars, ∃ u, bindings[x]? = some u ∧ u.Serves n
  spans : ∃ x ∈ e.vars, ∃ u, bindings[x]? = some u ∧ u.Spans n

/-- Batches of some number of lanes or one, and at least one of them, have a width: this number,
or else they have one lane each. -/
theorem Width.exists_of_serves (hn : 0 < n)
    (hserves : ∀ x ∈ e.vars, ∃ u, bindings[x]? = some u ∧ u.Serves n)
    (hbatch : ∃ x ∈ e.vars, ∃ as, bindings[x]? = some (.lanes as)) :
    bindings.Width e n ∨ bindings.Width e 1 := by
  by_cases hwide : ∃ x ∈ e.vars, ∃ u, bindings[x]? = some u ∧ u.Spans n
  · exact .inl ⟨hn, hserves, hwide⟩
  -- no batch has `n` lanes, so all have one
  have hone : ∀ x ∈ e.vars, ∃ u, bindings[x]? = some u ∧
      ((∃ a, u = .single a) ∨ ∃ a, u = .lanes [a]) := by
    intro x hx
    obtain ⟨u, hu, hserves⟩ := hserves x hx
    cases hserves with
    | number a => exact ⟨_, hu, .inl ⟨a, rfl⟩⟩
    | one a => exact ⟨_, hu, .inr ⟨a, rfl⟩⟩
    | each h => exact absurd ⟨x, hx, _, hu, _, rfl, h⟩ hwide
  refine .inr ⟨Nat.one_pos, fun x hx => ?_, ?_⟩
  · obtain ⟨u, hu, ⟨a, rfl⟩ | ⟨a, rfl⟩⟩ := hone x hx
    · exact ⟨_, hu, .number a⟩
    · exact ⟨_, hu, .one a⟩
  · obtain ⟨x, hx, as, has⟩ := hbatch
    obtain ⟨u, hu, hone⟩ := hone x hx
    obtain rfl := Option.some.inj (has.symm.trans hu)
    obtain ⟨a, ha⟩ | ⟨a, ha⟩ := hone
    · cases ha
    · exact ⟨x, hx, _, has, _, rfl, by rw [Batch.lanes.inj ha]; rfl⟩

theorem Width.eq_or_eq_one (h : bindings.Width e n) (h' : bindings.Width e m) :
    n = m ∨ n = 1 := by
  obtain ⟨x, hx, u, hu, as, rfl, has⟩ := h.spans
  obtain ⟨v, hv, hserves⟩ := h'.serves x hx
  obtain rfl := Option.some.inj (hu.symm.trans hv)
  cases hserves with
  | one a => exact .inr has.symm
  | each h => exact .inl (has.symm.trans h)

/-- The width is determined by the bindings and the expression. -/
theorem Width.unique (h : bindings.Width e n) (h' : bindings.Width e m) : n = m := by
  rcases h.eq_or_eq_one h' with hnm | hn
  · exact hnm
  · rcases h'.eq_or_eq_one h with hmn | hm
    · exact hmn.symm
    · exact hn.trans hm.symm

variable [Arithmetic α]

/-- Evaluation under bindings of batches is evaluation under the bindings on each lane. -/
theorem laneByLane (h : bindings.Width e n) :
    LaneByLane n (fun i => (bindings.lane i).evaluate e) (bindings.evaluateBatch e) := by
  have hlane (i : Nat) : (fun x => (bindings.lane i)[x]?) =
      fun x => bindings[x]?.bind (Batch.lane? i) := funext (getElem?_lane i)
  simp only [evaluate, evaluateBatch, hlane]
  exact (Expr.laneByLane h.pos h.serves).mapError _ _

/-- A value under bindings of batches has the width of the bindings. -/
theorem spans_of_evaluateBatch (h : bindings.Width e n) {u : Batch α}
    (hu : bindings.evaluateBatch e = .ok u) : u.Spans n := by
  rw [evaluateBatch] at hu
  cases heval : e.evalBatch fun x => bindings[x]? with
  | error err =>
    rw [heval] at hu
    cases hu
  | ok v =>
    rw [heval] at hu
    exact Except.ok.inj hu ▸ Expr.spans_of_evalBatch h.pos h.serves h.spans heval

/-- **A batch of values is the values on the lanes.** Let the variables of an expression stand for
numbers and for batches of `n` lanes or one, at least one of them for a batch of `n` lanes. Then
the expression has a value just when it has one on each of the `n` lanes, and its value is the
batch of the values on the lanes, in order. Batches that the expression does not use have no
effect, neither on the value nor on the failure. -/
theorem evaluateBatch_lanes (h : bindings.Width e n) :
    ((∃ u, bindings.evaluateBatch e = .ok u) ↔
      ∀ i < n, ∃ a, (bindings.lane i).evaluate e = .ok a) ∧
    (∀ u, bindings.evaluateBatch e = .ok u → ∃ as, u = .lanes as ∧ as.length = n ∧
      ∀ i < n, ∃ a, as[i]? = some a ∧ (bindings.lane i).evaluate e = .ok a) ∧
    ∀ bindings' : Bindings (Batch α), (∀ x ∈ e.vars, bindings'[x]? = bindings[x]?) →
      bindings'.evaluateBatch e = bindings.evaluateBatch e := by
  refine ⟨(laneByLane h).exists_ok_iff, fun u hu => ?_, fun bindings' hagree => ?_⟩
  · obtain ⟨as, rfl, hlength⟩ := spans_of_evaluateBatch h hu
    refine ⟨as, rfl, hlength, fun i hi => ?_⟩
    obtain ⟨a, ha, hlane⟩ := LaneByLane.lane_of_ok (hu ▸ laneByLane h) hi
    exact ⟨a, (Batch.lane?_lanes (hlength.symm ▸ hi)).symm.trans hlane, ha⟩
  · have hbound : ∀ x ∈ e.vars, x ∈ bindings := fun x hx => by
      obtain ⟨u, hu, -⟩ := h.serves x hx
      exact Std.TreeMap.mem_iff_isSome_getElem?.mpr (hu ▸ rfl)
    exact eq_of_mapError_withAvailable (evaluateBatch_congr hagree)
      (evaluateBatch_ne_unbound hbound)

/-- A product of a batch of two lanes, a number and a batch of one lane, with and without a batch
of another length that it does not use. -/
theorem evaluateBatch_lanes_product :
    let bindings : Bindings (Batch Float) := (((∅ : Bindings (Batch Float)).insert
      "x" (.lanes [1, 2])).insert "y" (.single 3)).insert "z" (.lanes [4])
    let more : Bindings (Batch Float) := bindings.insert "t" (.lanes [])
    let product : Expr Float := .mul (.var "x") (.mul (.var "y") (.var "z"))
    bindings.Width product 2 ∧
      bindings.evaluateBatch product = .ok (.lanes [1 * (3 * 4), 2 * (3 * 4)]) ∧
      more.evaluateBatch product = bindings.evaluateBatch product := by
  intro bindings more product
  have hx : bindings["x"]? = some (.lanes [1, 2]) := by
    simp only [bindings, Std.TreeMap.getElem?_insert]
    rfl
  have hy : bindings["y"]? = some (.single 3) := by
    simp only [bindings, Std.TreeMap.getElem?_insert]
    rfl
  have hz : bindings["z"]? = some (.lanes [4]) := Std.TreeMap.getElem?_insert_self
  have hwidth : bindings.Width product 2 := by
    refine ⟨Nat.two_pos, ?_, "x", List.mem_cons_self, _, hx, _, rfl, rfl⟩
    simp only [product, Expr.vars, List.cons_append, List.nil_append, List.forall_mem_cons]
    exact ⟨⟨_, hx, .each rfl⟩, ⟨_, hy, .number 3⟩, ⟨_, hz, .one 4⟩, List.forall_mem_nil _⟩
  have hlane (i : Nat) (a : Float) (ha : (Batch.lanes [1, 2]).lane? i = some a) :
      (bindings.lane i).evaluate product = .ok (a * (3 * 4)) := by
    simp only [evaluate, product, Expr.eval, getElem?_lane, hx, hy, hz, Option.bind_some, ha]
    rfl
  obtain ⟨hiff, hvalue, hunused⟩ := evaluateBatch_lanes hwidth
  obtain ⟨u, hu⟩ := hiff.mpr fun i hi => by
    obtain rfl | rfl : i = 0 ∨ i = 1 := by omega
    · exact ⟨_, hlane 0 1 rfl⟩
    · exact ⟨_, hlane 1 2 rfl⟩
  obtain ⟨as, rfl, hlength, hlanes⟩ := hvalue u hu
  obtain ⟨a, ha, ha'⟩ := hlanes 0 Nat.two_pos
  obtain ⟨b, hb, hb'⟩ := hlanes 1 Nat.one_lt_two
  obtain rfl := Except.ok.inj ((hlane 0 1 rfl).symm.trans ha')
  obtain rfl := Except.ok.inj ((hlane 1 2 rfl).symm.trans hb')
  have has : as = [1 * (3 * 4), 2 * (3 * 4)] := by
    obtain ⟨a, b, rfl⟩ := List.length_eq_two.mp hlength
    rw [Option.some.inj ha, Option.some.inj hb]
  refine ⟨hwidth, has ▸ hu, hunused more fun x hx => ?_⟩
  have hne : "t" ≠ x := by
    rintro rfl
    revert hx
    decide
  rw [Std.TreeMap.getElem?_insert, if_neg (mt Std.LawfulEqCmp.eq_of_compare hne)]

end Bindings

end Fluxion
