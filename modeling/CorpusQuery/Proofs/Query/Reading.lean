import CorpusQuery.Proofs.Query.Position
import CorpusQuery.Query.Reading

/-!
Readings on record against functions of cursors. What a part of a reading gives is what a function
gives at its cursor; what comes about on the way is paid for with text, two calls or turns for a
character. One rule for each way to put a reading together says how the payments add up.
-/

namespace CorpusQuery

namespace Event

/-- What is on record as long as nothing fails. No more parentheses are open than may be. A task
that is over has closed those it opened and has used text up, but for a repetition, which may be
left out. -/
def Sound : Event → Prop
  | begun _ start => start.depth ≤ Parser.maxNesting
  | ended task start stop =>
    start.depth ≤ Parser.maxNesting ∧ stop.depth = start.depth ∧
      (task ≠ .repetition → start.offset < stop.offset)
  | failed _ _ _ => False

/-- What is on record from a failure on. -/
def FailsWith (e : ParseError) : Event → Prop
  | failed _ start error => error = e ∧ start.depth ≤ Parser.maxNesting
  | _ => False

def isBegun : Event → Bool
  | begun _ _ => true
  | _ => false

end Event

/-- The number of calls and turns on record. -/
def tasks (events : List Event) : Nat := events.countP Event.isBegun

@[simp] theorem tasks_nil : tasks [] = 0 := rfl

@[simp] theorem tasks_begun (task : Task) (start : Place) (events : List Event) :
    tasks (.begun task start :: events) = tasks events + 1 := List.countP_cons_of_pos rfl

@[simp] theorem tasks_ended (task : Task) (start stop : Place) (events : List Event) :
    tasks (.ended task start stop :: events) = tasks events :=
  List.countP_cons_of_neg (by simp [Event.isBegun])

@[simp] theorem tasks_append (events events' : List Event) :
    tasks (events ++ events') = tasks events + tasks events' := List.countP_append

theorem tasks_eq_zero_of_failsWith {e : ParseError} {events : List Event}
    (h : ∀ event ∈ events, event.FailsWith e) : tasks events = 0 := by
  rw [tasks, List.countP_eq_zero]
  intro event hmem hbegun
  have hfails := h event hmem
  cases event with
  | begun => exact hfails
  | ended => exact hfails
  | failed => cases hbegun

theorem Cursor.Took.length_le {c c' : Cursor} {t : Text} (h : c.Took t c') :
    c'.rest.length + t.length ≤ c.rest.length := by
  obtain ⟨w, w', -, -, heq⟩ := h
  simp only [heq, List.length_append]
  omega

/-- What is taken is not empty. -/
theorem Cursor.length_lt_of_accept? {c c' : Cursor} {symbols : List Text} {s : Text}
    (hsymbols : ∀ symbol ∈ symbols, symbol ≠ []) (h : c.accept? .skip symbols = some (s, c')) :
    c'.rest.length < c.rest.length := by
  obtain ⟨hmem, htook⟩ := accept?_eq_some h
  have hlength := htook.length_le
  have hpos := List.length_pos_of_ne_nil (hsymbols s hmem)
  omega

namespace Reading

variable {α β : Type} {text : Text} {levels : Nat} {r : Reading}

/-! ### Steps of a reading -/

theorem bind_of_ok {m : ReadM α} {k : α → ReadM β} {r' : Reading} {x : α}
    (h : m r = some (.ok x, r')) : (m >>= k) r = k x r' := by
  change StateT.bind m (ExceptT.bindCont k) r = _
  rw [StateT.bind, h]
  rfl

theorem bind_of_error {m : ReadM α} {k : α → ReadM β} {r' : Reading} {e : ParseError}
    (h : m r = some (.error e, r')) : (m >>= k) r = some (.error e, r') := by
  change StateT.bind m (ExceptT.bindCont k) r = _
  rw [StateT.bind, h]
  rfl

theorem modify_bind {g : Reading → Reading} {k : Unit → ReadM β} :
    (modify g >>= k) r = k () (g r) := rfl

theorem get_bind {k : Reading → ReadM β} : (get >>= k) r = k r r := rfl

theorem during_eq {task : Task} {m : ReadM α} {result : Except ParseError α} {r' : Reading}
    (h : m (r.note (.begun task r.place)) = some (result, r')) :
    during task m r = leave task r.place result r' := by
  have hrest : StateT.bind m (leave task r.place) (r.note (.begun task r.place)) =
      leave task r.place result r' := by
    rw [StateT.bind, h]
    rfl
  exact hrest

/-- A reading comes to what is said of its cursor. Each call and each turn is paid for with text,
two for a character: when all goes well, at least `gain` is left of what the text used up is worth;
when something fails, all the text that there was and `bound` pay for what has come about. -/
inductive Runs (text : Text) (gain bound : Int) (r : Reading) :
    Except ParseError (α × Cursor) → Option (Except ParseError α × Reading) → Prop where
  | ok (x : α) (c : Cursor) (events : List Event) (hin : c.In text)
      (hsound : ∀ event ∈ events, event.Sound)
      (hgain : tasks events + gain + 2 * c.rest.length ≤ 2 * r.cursor.rest.length) :
    Runs text gain bound r (.ok (x, c)) (some (.ok x, ⟨c, r.depth, r.events ++ events⟩))
  | error (e : ParseError) (last : Reading) (events failures : List Event)
      (hdepth : last.depth ≤ Parser.maxNesting)
      (hlast : last.events = r.events ++ (events ++ failures))
      (hsound : ∀ event ∈ events, event.Sound) (hfails : ∀ event ∈ failures, event.FailsWith e)
      (hbound : tasks events ≤ 2 * r.cursor.rest.length + bound) :
    Runs text gain bound r (.error e) (some (.error e, last))

/-- A reading does what `f` does to cursors, wherever in the text it begins and as long as
parentheses may nest `levels` deeper there. -/
def Follows (text : Text) (gain bound : Int) (levels : Nat)
    (f : Cursor → Except ParseError (α × Cursor)) (m : ReadM α) : Prop :=
  ∀ r : Reading, r.cursor.In text → r.depth + levels = Parser.maxNesting →
    Runs text gain bound r (f r.cursor) (m r)

namespace Runs

variable {gain bound gain' bound' : Int} {f : Except ParseError (α × Cursor)}
  {out : Option (Except ParseError α × Reading)}

theorem mono (h : Runs text gain' bound' r f out) (hgain : gain ≤ gain') (hbound : bound' ≤ bound) :
    Runs text gain bound r f out := by
  cases h with
  | ok x c events hin hsound hpaid => exact .ok x c events hin hsound (by omega)
  | error e last events failures hdepth hlast hsound hfails hpaid =>
    exact .error e last events failures hdepth hlast hsound hfails (by omega)

theorem pure (x : α) (hin : r.cursor.In text) (hgain : gain ≤ 0) :
    Runs text gain bound r (.ok (x, r.cursor)) ((Pure.pure x : ReadM α) r) := by
  have hgain' : (tasks [] : Int) + gain + 2 * r.cursor.rest.length ≤ 2 * r.cursor.rest.length := by
    rw [tasks_nil]
    omega
  have h : Runs text gain bound r _ _ := .ok x r.cursor [] hin (by simp) hgain'
  rw [List.append_nil] at h
  exact h

theorem fail (e : ParseError) (hdepth : r.depth ≤ Parser.maxNesting) (hbound : 0 ≤ bound) :
    Runs (α := α) text gain bound r (.error e) (some (.error e, r)) := by
  refine .error e r [] [] hdepth (by simp) (by simp) (by simp) ?_
  rw [tasks_nil]
  omega

/-- What the first part leaves over pays for the second. -/
theorem bind {m : ReadM α} {k : α → ReadM β} {g : α × Cursor → Except ParseError (β × Cursor)}
    (hm : Runs text gain' bound' r f (m r)) (hbound : bound' ≤ bound)
    (hk : ∀ (x : α) (r' : Reading), r'.cursor.In text → r'.depth = r.depth →
      gain' + 2 * r'.cursor.rest.length ≤ 2 * r.cursor.rest.length →
      Runs text (gain - gain') (bound + gain') r' (g (x, r'.cursor)) (k x r')) :
    Runs text gain bound r (f >>= g) ((m >>= k) r) := by
  generalize hout : m r = out at hm
  cases hm with
  | error e last events failures hdepth hlast hsound hfails hpaid =>
    rw [bind_of_error hout]
    exact .error e last events failures hdepth hlast hsound hfails (by omega)
  | ok x c events hin hsound hpaid =>
    rw [bind_of_ok hout]
    have hnext := hk x ⟨c, r.depth, r.events ++ events⟩ hin rfl (by dsimp only; omega)
    change Runs text gain bound r (g (x, c)) _
    dsimp only at hnext
    generalize g (x, c) = result, k x ⟨c, r.depth, r.events ++ events⟩ = out at hnext
    cases hnext with
    | ok y c' events' hin' hsound' hpaid' =>
      dsimp only at hpaid' ⊢
      rw [List.append_assoc]
      refine .ok y c' (events ++ events') hin' (List.forall_mem_append.mpr ⟨hsound, hsound'⟩) ?_
      rw [tasks_append]
      omega
    | error e last events' failures hdepth hlast hsound' hfails hpaid' =>
      dsimp only at hlast hpaid'
      refine .error e last (events ++ events') failures hdepth ?_
        (List.forall_mem_append.mpr ⟨hsound, hsound'⟩) hfails ?_
      · rw [hlast]
        simp only [List.append_assoc]
      · rw [tasks_append]
        omega

/-- What is passed over pays for what comes about behind it. -/
theorem moved {c : Cursor} (n : Nat) (hn : c.rest.length + n ≤ r.cursor.rest.length)
    (h : Runs text (gain - 2 * n) (bound + 2 * n) (r.goTo c) f out) :
    Runs text gain bound r f out := by
  cases h with
  | ok x c' events hin hsound hpaid =>
    simp only [goTo] at hpaid
    exact .ok x c' events hin hsound (by omega)
  | error e last events failures hdepth hlast hsound hfails hpaid =>
    simp only [goTo] at hpaid
    exact .error e last events failures hdepth hlast hsound hfails (by omega)

theorem during {task : Task} {m : ReadM α} (hin : r.cursor.In text)
    (hdepth : r.depth ≤ Parser.maxNesting) (htask : task ≠ .repetition → 0 ≤ gain)
    (hm : ∀ r' : Reading, r'.cursor = r.cursor → r'.depth = r.depth →
      Runs text (gain + 1) (bound - 1) r' f (m r')) :
    Runs text gain bound r f (Reading.during task m r) := by
  have hstart : (Event.begun task r.place).Sound := hdepth
  have h := hm (r.note (.begun task r.place)) rfl rfl
  generalize hout : m (r.note (.begun task r.place)) = out at h
  cases h with
  | ok x c events hc hsound hpaid =>
    simp only [note] at hpaid
    -- The task itself has been paid for, so that at least one character has been used up.
    have hstop : (Event.ended task r.place ⟨c.offset, r.depth⟩).Sound := by
      refine ⟨hdepth, rfl, fun hne => ?_⟩
      have hlength := hin.offset_add_length
      have hlength' := hc.offset_add_length
      have hpos := htask hne
      simp only [place]
      omega
    have hlast : Reading.during task m r = some (.ok x, ⟨c, r.depth, r.events ++
        (.begun task r.place :: (events ++ [.ended task r.place ⟨c.offset, r.depth⟩]))⟩) := by
      rw [during_eq hout]
      simp [leave, note, place]
    rw [hlast]
    refine .ok x c _ hc ?_ ?_
    · exact List.forall_mem_cons.mpr
        ⟨hstart, List.forall_mem_append.mpr ⟨hsound, List.forall_mem_singleton.mpr hstop⟩⟩
    · simp only [tasks_begun, tasks_append, tasks_ended, tasks_nil]
      omega
  | error e last events failures hlast hevents hsound hfails hpaid =>
    simp only [note] at hevents hpaid
    have hfailed : (Event.failed task r.place e).FailsWith e := ⟨rfl, hdepth⟩
    rw [during_eq hout]
    refine .error e _ (.begun task r.place :: events) (failures ++ [.failed task r.place e])
      hlast ?_ (List.forall_mem_cons.mpr ⟨hstart, hsound⟩)
      (List.forall_mem_append.mpr ⟨hfails, List.forall_mem_singleton.mpr hfailed⟩) ?_
    · simp [note, hevents]
    · rw [tasks_begun]
      omega

/-- A parenthesis that is closed again leaves no trace in the depth. -/
theorem nested {m : ReadM α}
    (h : Runs text gain bound { r with depth := r.depth + 1 } f
      (m { r with depth := r.depth + 1 })) :
    Runs text gain bound r f
      ((m >>= fun x => unnest >>= fun _ => Pure.pure x) { r with depth := r.depth + 1 }) := by
  generalize hout : m { r with depth := r.depth + 1 } = out at h
  cases h with
  | ok x c events hin hsound hpaid =>
    rw [bind_of_ok hout]
    exact .ok x c events hin hsound hpaid
  | error e last events failures hdepth hlast hsound hfails hpaid =>
    rw [bind_of_error hout]
    exact .error e last events failures hdepth hlast hsound hfails hpaid

theorem reads (g : Cursor → Except ParseError (α × Cursor)) (n : Nat)
    (hdepth : r.depth ≤ Parser.maxNesting) (hlocated : Located text (g r.cursor) (·.2.In text))
    (hshort : Ensures (g r.cursor) fun x => x.2.rest.length + n ≤ r.cursor.rest.length) :
    Runs text (2 * n) 0 r (g r.cursor) (Reading.reads g r) := by
  unfold Reading.reads
  cases hout : g r.cursor with
  | error e => exact .fail e hdepth le_rfl
  | ok x =>
    have hshort' := hshort x hout
    exact .moved n hshort' (.pure x.1 (hlocated.ensures x hout) (by omega))

theorem skipLayout {k : Unit → ReadM α}
    (h : Runs text gain bound (r.goTo r.cursor.skipLayout) f
      (k () (r.goTo r.cursor.skipLayout))) :
    Runs text gain bound r f ((Reading.skipLayout >>= k) r) := by
  have hstep : Reading.skipLayout r = some (.ok (), r.goTo r.cursor.skipLayout) := rfl
  rw [bind_of_ok hstep]
  refine .moved 0 (List.dropWhile_suffix isLayout).length_le (h.mono ?_ ?_)
  · omega
  · omega

theorem expect (symbol : Text) (hsymbol : symbol ≠ []) (hin : r.cursor.In text)
    (hdepth : r.depth ≤ Parser.maxNesting) :
    Runs text 2 0 r (r.cursor.expect .skip [symbol]) (Reading.expect symbol r) := by
  refine .reads (·.expect .skip [symbol]) 1 hdepth (hin.expect .skip [symbol]) fun x hx => ?_
  have hlength := (Cursor.ensures_expect r.cursor symbol x hx).length_le
  have hpos := List.length_pos_of_ne_nil hsymbol
  omega

/-- A symbol is taken, or it is not there and nothing is. -/
theorem accept {k : Option Text → ReadM α} {symbol : Text} (hsymbol : symbol ≠ [])
    (hin : r.cursor.In text)
    (hsome : ∀ c, r.cursor.accept? .skip [symbol] = some (symbol, c) → c.In text →
      Runs text (gain - 2) (bound + 2) (r.goTo c) f (k (some symbol) (r.goTo c)))
    (hnone : r.cursor.accept? .skip [symbol] = none → Runs text gain bound r f (k none r)) :
    Runs text gain bound r f ((Reading.accept [symbol] >>= k) r) := by
  cases haccept : r.cursor.accept? .skip [symbol] with
  | none =>
    have hstep : Reading.accept [symbol] r = some (.ok none, r) := by
      simp [Reading.accept, Reading.reads, haccept, goTo]
    rw [bind_of_ok hstep]
    exact hnone haccept
  | some taken =>
    obtain ⟨s, c⟩ := taken
    obtain rfl := List.mem_singleton.mp (Cursor.accept?_eq_some haccept).1
    have hstep : Reading.accept [s] r = some (.ok (some s), r.goTo c) := by
      simp [Reading.accept, Reading.reads, haccept]
    rw [bind_of_ok hstep]
    have hlt := Cursor.length_lt_of_accept? (by simpa using hsymbol) haccept
    exact .moved 1 hlt (hsome c haccept (hin.accept? haccept).1)

end Runs

theorem Follows.during {gain bound : Int} {f : Cursor → Except ParseError (α × Cursor)}
    {m : ReadM α} (task : Task) (htask : task ≠ .repetition → 0 ≤ gain)
    (hm : Follows text (gain + 1) (bound - 1) levels f m) :
    Follows text gain bound levels f (Reading.during task m) := by
  intro r hin hlevels
  refine .during hin (by omega) htask fun r' hcursor hdepth => ?_
  rw [← hcursor] at hin ⊢
  exact hm r' hin (hdepth ▸ hlevels)

/-- A task that calls no other, over what is written with two characters at least. -/
theorem follows_during_reads (task : Task) {f : Cursor → Except ParseError (α × Cursor)}
    {P : Text → α → Prop} (hlocated : ∀ c, c.In text → Located text (f c) (·.2.In text))
    (hshows : ∀ c, Ensures (f c) (Grammar.Shows P c)) (hlong : ∀ t x, P t x → 2 ≤ t.length) :
    Follows text 3 1 levels f (during task (reads f)) := by
  refine .during task (fun _ => by omega) fun r hin hlevels => ?_
  refine (Runs.reads f 2 (by omega) (hlocated _ hin) fun x hx => ?_).mono (by omega) (by omega)
  obtain ⟨t, ht, htook⟩ := hshows _ x hx
  have hlength := htook.length_le
  have htwo := hlong t x.1 ht
  omega

end Reading

end CorpusQuery
