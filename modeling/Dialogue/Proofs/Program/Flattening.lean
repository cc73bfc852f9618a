import Dialogue.Proofs.Program.Correctness

/-!
# A choice in front of a branch

A branch that leads with another choice stands for one branch for each of that choice, with what
follows the inner choice behind it. Offers keep what they wait for, and what follows the inner
choice follows each of them. What an offer does on failure is not opened, so it leads out of the
outer choice: what follows the inner choice is passed over.

A choice whose only branch leads with a choice therefore shows the same as the body of that branch,
unless a lead fails, what is done instead is run through, and what follows would have been seen.

## Main definitions

* `Run` — what is seen of a machine on its way from one state to another
* `Statement.PassesOver` — replies under which what follows an inner choice is passed over

## Main results

* `Statement.trace_append` — a body shows what its first part shows, and if that is run through
  what the second part shows
* `Program.flattened_agrees_iff` — when a nested choice shows what the choice alone shows
-/

namespace Dialogue

/-! ## Runs of machines -/

/-- What is seen of a machine on its way from one state to another, under replies of which some may
be left. -/
inductive Run {σ : Type} (move : σ → Move σ) :
    σ → List Reply → List Observation → σ → List Reply → Prop
  | refl {s rs} : Run move s rs [] s rs
  | silent {s s' t rs left os} (h : move s = .silent s') (rest : Run move s' rs os t left) :
    Run move s rs os t left
  | act {s s' t rs left o os} (h : move s = .act o s') (rest : Run move s' rs os t left) :
    Run move s rs (o :: os) t left
  | reply {s s' t r rs left o next os} (h : move s = .ask o next) (fits : next r = some s')
    (rest : Run move s' rs os t left) : Run move s (r :: rs) (o :: os) t left

section Run

variable {σ τ : Type} {move : σ → Move σ} {move' : τ → Move τ} {s t : σ} {rs left : List Reply}
  {seen os : List Observation}

/-- After a run, what is seen from its last state on is seen. -/
theorem Run.trace (run : Run move s rs seen t left) (rest : Trace move t left os) :
    Trace move s rs (seen ++ os) := by
  induction run with
  | refl => exact rest
  | silent h _ ih => exact .silent h (ih rest)
  | act h _ ih => exact .act h (ih rest)
  | reply h fits _ ih => exact .reply h fits (ih rest)

theorem Run.trans {u : σ} {left' : List Reply} {seen' : List Observation}
    (run : Run move s rs seen t left) (rest : Run move t left seen' u left') :
    Run move s rs (seen ++ seen') u left' := by
  induction run with
  | refl => exact rest
  | silent h _ ih => exact .silent h (ih rest)
  | act h _ ih => exact .act h (ih rest)
  | reply h fits _ ih => exact .reply h fits (ih rest)

/-- Replies that a run does not need are left. -/
theorem Run.with_more (run : Run move s rs seen t left) (more : List Reply) :
    Run move s (rs ++ more) seen t (left ++ more) := by
  induction run with
  | refl => exact .refl
  | silent h _ ih => exact .silent h ih
  | act h _ ih => exact .act h ih
  | reply h fits _ ih => exact .reply h fits ih

/-- The same move between other states. -/
def Move.map (f : σ → τ) : Move σ → Move τ
  | .silent next => .silent (f next)
  | .act o next => .act o (f next)
  | .ask o next => .ask o fun r => (next r).map f
  | .stop o => .stop o

section Map

variable {f : σ → τ} {m : Move σ} {o : Observation} {t : τ} {next : Reply → Option τ}

theorem Move.map_eq_silent : m.map f = .silent t ↔ ∃ s, m = .silent s ∧ f s = t := by
  cases m <;> simp [map]

theorem Move.map_eq_act : m.map f = .act o t ↔ ∃ s, m = .act o s ∧ f s = t := by
  cases m <;> simp [map]

theorem Move.map_eq_ask : m.map f = .ask o next ↔
    ∃ next', m = .ask o next' ∧ (fun r => (next' r).map f) = next := by
  cases m <;> simp [map]

theorem Move.map_eq_stop : m.map f = .stop o ↔ m = .stop o := by
  cases m <;> simp [map]

end Map

end Run

namespace Statement

variable {inner : List (List Statement)} {rest a b : List Statement} {rs left : List Reply}
  {seen os : List Observation}

/-! ## What is behind a body -/

theorem goesOn?_append (offers : List Offer) (timeout : Option Duration)
    (onTimeout rest b : List Statement) (r : Reply) :
    goesOn? offers timeout onTimeout (rest ++ b) r =
      (goesOn? offers timeout onTimeout rest r).map (· ++ b) := by
  cases r with
  | holds => rfl
  | wins arm | fails arm | timesOut => simp [goesOn?, Function.comp_def]

theorem choose_append (offers : List Offer) (timeout : Option Duration)
    (onTimeout rest b : List Statement) :
    choose offers timeout onTimeout (rest ++ b) =
      (choose offers timeout onTimeout rest).map (· ++ b) := by
  simp only [choose, Move.map, ← goesOn?_append]

/-- Until a body is run through, its moves do not depend on what is behind it. -/
theorem move_append (h : a ≠ []) (b : List Statement) : move (a ++ b) = (move a).map (· ++ b) := by
  cases a with
  | nil => exact absurd rfl h
  | cons s a =>
    cases s with
    | send | start | assign | abort => rfl
    | sequence | loop => simp [move, Move.map]
    | branch condition thenBody elseBody =>
      simp only [List.cons_append, move, Move.map, Move.ask.injEq, true_and]
      funext r
      cases r with
      | holds => simp
      | _ => rfl
    | expect | await | execute | alternative | waitAny => exact choose_append ..

/-- A run through a body leads to what is behind it. -/
theorem run_append (run : Run move a rs seen [] left) (b : List Statement) :
    Run move (a ++ b) rs seen b left := by
  generalize hend : ([] : List Statement) = last at run
  -- A body from which another move has been made is not empty, because nothing left is the end.
  induction run with
  | refl => exact hend ▸ .refl
  | @silent s _ _ _ _ _ h _ ih =>
    have hs : s ≠ [] := by rintro rfl; simp [move] at h
    exact .silent (by rw [move_append hs, h, Move.map]) (ih hend)
  | @act s _ _ _ _ _ _ h _ ih =>
    have hs : s ≠ [] := by rintro rfl; simp [move] at h
    exact .act (by rw [move_append hs, h, Move.map]) (ih hend)
  | @reply s _ _ _ _ _ _ _ _ h fits _ ih =>
    have hs : s ≠ [] := by rintro rfl; simp [move] at h
    exact .reply (by rw [move_append hs, h, Move.map]) (by rw [fits, Option.map_some]) (ih hend)

/-- A body with another one behind it is run through, and then the other one is seen, or nothing is
seen but the body. -/
theorem trace_append (trace : Trace move (a ++ b) rs os) :
    (∃ seen left os', Run move a rs seen [] left ∧ Trace move b left os' ∧ os = seen ++ os') ∨
      Trace move a rs os := by
  generalize hab : a ++ b = body at trace
  -- The first body may have been run through already. If not, the step is one of the first body.
  induction trace generalizing a with subst hab
  | @silent _ _ _ os h rest ih =>
    rcases eq_or_ne a [] with rfl | ha
    · exact .inl ⟨[], _, os, .refl, .silent h rest, rfl⟩
    · obtain ⟨a', h', ha'⟩ := Move.map_eq_silent.mp (move_append ha b ▸ h)
      obtain ⟨seen, left, os', run, after, rfl⟩ | whole := ih ha'
      · exact .inl ⟨seen, left, os', .silent h' run, after, rfl⟩
      · exact .inr (.silent h' whole)
  | @act _ _ _ o os h rest ih =>
    rcases eq_or_ne a [] with rfl | ha
    · exact .inl ⟨[], _, _, .refl, .act h rest, rfl⟩
    · obtain ⟨a', h', ha'⟩ := Move.map_eq_act.mp (move_append ha b ▸ h)
      obtain ⟨seen, left, os', run, after, rfl⟩ | whole := ih ha'
      · exact .inl ⟨o :: seen, left, os', .act h' run, after, rfl⟩
      · exact .inr (.act h' whole)
  | @reply _ _ _ _ o _ os h fits rest ih =>
    rcases eq_or_ne a [] with rfl | ha
    · exact .inl ⟨[], _, _, .refl, .reply h fits rest, rfl⟩
    · obtain ⟨next', h', rfl⟩ := Move.map_eq_ask.mp (move_append ha b ▸ h)
      obtain ⟨a', fits', ha'⟩ := Option.map_eq_some_iff.mp fits
      obtain ⟨seen, left, os', run, after, rfl⟩ | whole := ih ha'
      · exact .inl ⟨o :: seen, left, os', .reply h' fits' run, after, rfl⟩
      · exact .inr (.reply h' fits' whole)
  | refuse h fits =>
    rcases eq_or_ne a [] with rfl | ha
    · exact .inl ⟨[], _, _, .refl, .refuse h fits, rfl⟩
    · obtain ⟨next', h', rfl⟩ := Move.map_eq_ask.mp (move_append ha b ▸ h)
      exact .inr (.refuse h' (Option.map_eq_none_iff.mp fits))
  | wait h =>
    rcases eq_or_ne a [] with rfl | ha
    · exact .inl ⟨[], _, _, .refl, .wait h, rfl⟩
    · obtain ⟨next', h', -⟩ := Move.map_eq_ask.mp (move_append ha b ▸ h)
      exact .inr (.wait h')
  | stop h =>
    rcases eq_or_ne a [] with rfl | ha
    · exact .inl ⟨[], _, _, .refl, .stop h, rfl⟩
    · exact .inr (.stop (Move.map_eq_stop.mp (move_append ha b ▸ h)))

/-! ## A choice that leads a branch -/

/-- An offer with something behind what follows it. What is done on failure stays as it is. -/
def Offer.before (rest : List Statement) (o : Offer) : Offer :=
  { o with tail := o.tail ++ rest }

theorem offer?_append (h : b ≠ []) (rest : List Statement) :
    offer? (b ++ rest) = (offer? b).map (Offer.before rest) := by
  cases b with
  | nil => exact absurd rfl h
  | cons s b => cases s <;> rfl

theorem offers_nested (filled : ∀ b ∈ openBranches inner, b ≠ []) (rest : List Statement) :
    offers [alternative inner :: rest] = (offers inner).map (Offer.before rest) := by
  rw [offers, openBranches, openBranches, List.append_nil, openBranch, List.filterMap_map,
    offers, List.map_filterMap]
  exact List.filterMap_congr fun b hb => offer?_append (filled b hb) rest

/-- What is seen first of a choice. -/
def suspended (branches : List (List Statement)) : Observation :=
  .suspended ((offers branches).map Offer.lead) none

theorem suspended_nested (filled : ∀ b ∈ openBranches inner, b ≠ []) (rest : List Statement) :
    suspended [alternative inner :: rest] = suspended inner := by
  simp only [suspended, offers_nested filled, List.map_map]
  rfl

theorem move_nested (filled : ∀ b ∈ openBranches inner, b ≠ []) (rest : List Statement) :
    move [alternative [alternative inner :: rest]] = .ask (suspended inner)
      (goesOn? ((offers inner).map (Offer.before rest)) none [] []) := by
  rw [← suspended_nested filled rest, ← offers_nested filled]
  rfl

/-- If a lead is won, a branch goes on as the choice does that it leads with. -/
theorem goesOn?_wins (offers : List Offer) (arm : Nat) (rest : List Statement) :
    goesOn? (offers.map (Offer.before rest)) none [] [] (.wins arm) =
      goesOn? offers none [] rest (.wins arm) := by
  simp [goesOn?, Offer.before, Function.comp_def]

/-- If it fails, nothing of the branch follows what is done instead. -/
theorem goesOn?_fails (offers : List Offer) (arm : Nat) (rest : List Statement) :
    goesOn? (offers.map (Offer.before rest)) none [] [] (.fails arm) =
      offers[arm]?.bind Offer.onFailure := by
  simp only [goesOn?, List.append_nil, Option.map_id', List.getElem?_map, Option.bind_map]
  rfl

/-- Replies under which what follows a choice is passed over if the choice leads a branch: one of
its leads fails, and what is done instead is run through. It comes with what is seen of that, and
what would be seen after it. -/
def PassesOver (inner : List (List Statement)) (rest : List Statement) (rs : List Reply)
    (seen os : List Observation) : Prop :=
  ∃ arm rs' offer handler left, rs = .fails arm :: rs' ∧ (offers inner)[arm]? = some offer ∧
    offer.onFailure = some handler ∧ Run move handler rs' seen [] left ∧ Trace move rest left os

/-- Behind a lead that fails, a choice shows what follows it, and a branch that it leads does
not. -/
theorem PassesOver.traces (filled : ∀ b ∈ openBranches inner, b ≠ [])
    (h : PassesOver inner rest rs seen os) :
    Trace move (alternative inner :: rest) rs (suspended inner :: seen ++ os) ∧
      Trace move [alternative [alternative inner :: rest]] rs
        (suspended inner :: seen ++ [.finished]) := by
  obtain ⟨arm, rs', offer, handler, left, rfl, hoffer, handled, run, after⟩ := h
  constructor
  · have fits : goesOn? (offers inner) none [] rest (.fails arm) = some (handler ++ rest) := by
      simp [goesOn?, hoffer, handled]
    exact .reply rfl fits ((run_append run rest).trace after)
  · have fits : goesOn? ((offers inner).map (Offer.before rest)) none [] [] (.fails arm) =
        some (handler ++ []) := by
      simp [goesOn?, hoffer, handled, Offer.before]
    exact .reply (move_nested filled rest) fits ((run_append run []).trace (.stop rfl))

/-- What a choice shows is shown by a branch that it leads too, unless what follows the choice is
passed over. -/
theorem trace_nested (filled : ∀ b ∈ openBranches inner, b ≠ [])
    (trace : Trace move (alternative inner :: rest) rs os) :
    Trace move [alternative [alternative inner :: rest]] rs os ∨
      ∃ seen os', PassesOver inner rest rs seen os' ∧ os = suspended inner :: seen ++ os' := by
  have hmove : move (alternative inner :: rest) =
    .ask (suspended inner) (goesOn? (offers inner) none [] rest) := rfl
  have hnested := move_nested filled rest
  cases trace with
  | silent h | act h | stop h => simp [hmove] at h
  | wait h =>
    obtain ⟨rfl, -⟩ := Move.ask.inj (hmove ▸ h)
    exact .inl (.wait hnested)
  | @refuse _ r _ _ _ h fits =>
    obtain ⟨rfl, rfl⟩ := Move.ask.inj (hmove ▸ h)
    refine .inl (.refuse hnested ?_)
    cases r with
    | holds | timesOut => rfl
    | wins arm => rw [goesOn?_wins, fits]
    | fails arm =>
      rw [goesOn?_fails]
      exact Option.map_eq_none_iff.mp fits
  | @reply _ s' r rs _ _ os h fits after =>
    obtain ⟨rfl, rfl⟩ := Move.ask.inj (hmove ▸ h)
    cases r with
    | holds | timesOut => simp [goesOn?] at fits
    | wins arm => exact .inl (.reply hnested (by rw [goesOn?_wins, fits]) after)
    | fails arm =>
      -- What is done on failure is all that the branch still does, and the choice does more only
      -- if that is run through.
      obtain ⟨handler, hhandler, rfl⟩ := Option.map_eq_some_iff.mp fits
      obtain ⟨seen, left, os', run, behind, rfl⟩ | whole := trace_append after
      · obtain ⟨offer, hoffer, handled⟩ := Option.bind_eq_some_iff.mp hhandler
        exact .inr ⟨seen, os', ⟨arm, rs, offer, handler, left, rfl, hoffer, handled, run, behind⟩,
          rfl⟩
      · exact .inl (.reply hnested (by rw [goesOn?_fails, hhandler]) whole)

/-- A choice and a branch that it leads show the same if nothing is passed over but the end. -/
theorem agrees_nested (filled : ∀ b ∈ openBranches inner, b ≠ [])
    (kept : ∀ seen os, PassesOver inner rest rs seen os → os = [.finished])
    (trace : Trace move (alternative inner :: rest) rs os) :
    Trace move [alternative [alternative inner :: rest]] rs os := by
  obtain same | ⟨seen, os', passed, rfl⟩ := trace_nested filled trace
  · exact same
  · rw [kept seen os' passed]
    exact (passed.traces filled).2

/-- The branches of a choice that has been compiled are not empty. -/
theorem ne_nil_of_compiled {flow : String} {pc : Nat} {code : List Instr}
    (compiled : ((alternative inner).part flow).code pc = .ok code) :
    ∀ b ∈ openBranches inner, b ≠ [] := by
  rw [part, parts_openBranches] at compiled
  have selects : Emit.select flow ((openBranches inner).map (parts flow)) none Emit.nothing pc =
    .ok code := compiled
  obtain ⟨_, s, laid, -⟩ := select_eq_ok selects
  -- Each branch leads with what its offer waits for.
  have makes : List.Forall₂ (fun ps o => ps ≠ [] ∧ Part.Makes flow ps o)
      ((openBranches inner).map (parts flow)) ((openBranches inner).filterMap offer?) :=
    (forall₂_makes laid).imp fun ps o makes => ⟨by obtain ⟨head, rfl, -⟩ := makes; simp, makes⟩
  have led := ((List.forall₂_and_left _ _).mp makes).1
  rintro _ hb rfl
  exact led _ (List.mem_map_of_mem hb) (by rw [parts])

end Statement

namespace Program

open Statement

variable {d d' : FlowDefinition} {p p' : Program} {inner : List (List Statement)}
  {rest : List Statement}

/-- A program has the traces of the statements that it has been compiled from. -/
theorem trace_iff (compiled : d.compile = .ok p) {rs : List Reply} {os : List Observation} :
    Trace p.move 0 rs os ↔ Trace Statement.move d.body rs os := by
  obtain ⟨os', hp, hbody⟩ := (continues_compile compiled).agrees rs
  exact ⟨fun h => h.unique hp ▸ hbody, fun h => h.unique hbody ▸ hp⟩

theorem filled_of_compile (flat : d'.body = alternative inner :: rest)
    (compiled : d'.compile = .ok p') : ∀ b ∈ openBranches inner, b ≠ [] := by
  obtain ⟨code, hcode, -⟩ := bind_eq_ok.mp compiled
  rw [flat, Statement.code, parts, List.map_cons] at hcode
  obtain ⟨first, _, hfirst, -⟩ := Emit.all_cons hcode
  exact ne_nil_of_compiled hfirst

/-- A flow whose body is a choice with a single branch, which leads with a choice, shows the same as
a flow whose body is that branch, under given replies, if and only if nothing but the end is passed
over behind a lead that fails. Otherwise the one shows what has been done on failure and ends, and
the other one goes on with the rest of the branch. -/
theorem flattened_agrees_iff (nested : d.body = [alternative [alternative inner :: rest]])
    (flat : d'.body = alternative inner :: rest) (compiled : d.compile = .ok p)
    (compiled' : d'.compile = .ok p') (rs : List Reply) :
    ((∀ os, Trace p.move 0 rs os ↔ Trace p'.move 0 rs os) ↔
      ∀ seen os, PassesOver inner rest rs seen os → os = [.finished]) ∧
    ∀ seen os, PassesOver inner rest rs seen os →
      Trace p.move 0 rs (suspended inner :: seen ++ [.finished]) ∧
      Trace p'.move 0 rs (suspended inner :: seen ++ os) := by
  have filled := filled_of_compile flat compiled'
  -- Both programs show what their statements show.
  simp only [trace_iff compiled, trace_iff compiled', nested, flat]
  refine ⟨⟨fun same seen os passed => ?_, fun kept => ?_⟩,
    fun seen os passed => (passed.traces filled).symm⟩
  · obtain ⟨inFlat, inNested⟩ := passed.traces filled
    simpa using inFlat.unique ((same _).mp inNested)
  · obtain ⟨os, -, hflat⟩ := flat ▸ (continues_compile compiled').agrees rs
    have hnested := agrees_nested filled kept hflat
    exact fun os' => ⟨fun h => h.unique hnested ▸ hflat, fun h => h.unique hflat ▸ hnested⟩

/-- A flow with a given body. -/
def flowOf (body : List Statement) : FlowDefinition := ⟨"main", [], "", body⟩

/-- Two offers, the first of which has something to do on failure. -/
def asking : List (List Statement) :=
  [[.await "child" ∅ (some [.send "Sorry" ∅])], [.expect ⟨"UserSaid", ∅, ∅, false⟩]]

theorem flattened_agrees_iff_asking : ∃ p p',
    (flowOf [.alternative [.alternative asking :: [.send "Done" ∅]]]).compile = .ok p ∧
    (flowOf (.alternative asking :: [.send "Done" ∅])).compile = .ok p' ∧
    ∀ os, Trace p.move 0 [.wins 0] os ↔ Trace p'.move 0 [.wins 0] os := by
  obtain ⟨p, hp⟩ : ∃ p, (flowOf [.alternative [.alternative asking :: [.send "Done" ∅]]]).compile =
    .ok p := ⟨_, rfl⟩
  obtain ⟨p', hp'⟩ : ∃ p', (flowOf (.alternative asking :: [.send "Done" ∅])).compile = .ok p' :=
    ⟨_, rfl⟩
  refine ⟨p, p', hp, hp', (flattened_agrees_iff rfl rfl hp hp' _).1.mpr ?_⟩
  -- No lead fails.
  rintro seen os ⟨_, _, _, _, _, h, -⟩
  cases h

/-- When the child fails, the flow says sorry, and only the choice alone goes on to say that it is
done. -/
theorem rest_passed_over : ∃ p p',
    (flowOf [.alternative [.alternative asking :: [.send "Done" ∅]]]).compile = .ok p ∧
    (flowOf (.alternative asking :: [.send "Done" ∅])).compile = .ok p' ∧
    Trace p.move 0 [.fails 0] [suspended asking, .sent "Sorry" ∅, .finished] ∧
    Trace p'.move 0 [.fails 0] [suspended asking, .sent "Sorry" ∅, .sent "Done" ∅, .finished] ∧
    ¬ ∀ os, Trace p.move 0 [.fails 0] os ↔ Trace p'.move 0 [.fails 0] os := by
  obtain ⟨p, hp⟩ : ∃ p, (flowOf [.alternative [.alternative asking :: [.send "Done" ∅]]]).compile =
    .ok p := ⟨_, rfl⟩
  obtain ⟨p', hp'⟩ : ∃ p', (flowOf (.alternative asking :: [.send "Done" ∅])).compile = .ok p' :=
    ⟨_, rfl⟩
  have offered : (offers asking)[0]? = some ⟨.flow "child" ∅, [], some [.send "Sorry" ∅]⟩ := by
    simp [offers, asking, openBranches, openBranch, offer?]
  have passed : PassesOver asking [.send "Done" ∅] [.fails 0] [.sent "Sorry" ∅]
      [.sent "Done" ∅, .finished] :=
    ⟨0, [], _, _, [], rfl, offered, rfl, .act rfl .refl, .act rfl (.stop rfl)⟩
  obtain ⟨flat, nested⟩ := passed.traces (filled_of_compile rfl hp')
  have nested := (trace_iff hp).mpr nested
  have flat := (trace_iff hp').mpr flat
  exact ⟨p, p', hp, hp', nested, flat, fun same => by simpa using ((same _).mp nested).unique flat⟩

end Program

end Dialogue
