import Dialogue.Proofs.Session.Clock
import Dialogue.Replay

/-!
# What a replay writes down

Between two inputs a replay writes down turns, and answers the actions that they ask for, until
nothing follows any more. What has been written down before makes no difference to that, and neither
does the patience of the replay as long as it suffices: more of it changes nothing.

## Main definitions

* `Replay.retold` — a replay with another transcript and another patience
* `Replay.answered` — the actions that have been asked for are answered
* `Replay.Records` — how turns are written down, one after the other
* `Replay.Indifferent` — an act that does not depend on the transcript and on spare patience

## Main results

* `Replay.records` — turns are written down in this way
* `Replay.indifferent_record` — what comes of an input is indifferent
-/

namespace Dialogue

namespace Replay

variable {r r' : Replay} {o : Option ReplayError}

/-! ## Transcripts -/

/-- The replay with another transcript and another patience. -/
def retold (r : Replay) (transcript : Array String) (patience : Nat) : Replay :=
  { r with transcript, patience }

theorem foldl_note (lines : List String) (r : Replay) :
    lines.foldl note r = r.retold (r.transcript ++ lines.toArray) r.patience := by
  induction lines generalizing r with
  | nil => simp [retold]
  | cons line rest ih =>
    have pushed : r.transcript.push line ++ rest.toArray =
        r.transcript ++ (line :: rest).toArray := by simp
    rw [List.foldl_cons, ih]
    exact congrArg (r.retold · r.patience) pushed

/-- The lines of a turn come after what has been written down before. -/
theorem print_eq (r : Replay) (t : Turn) :
    r.print t = r.retold (r.transcript ++ (turnLines r.isJson t).toArray) r.patience :=
  foldl_note _ r

theorem session_print (r : Replay) (t : Turn) : (r.print t).session = r.session := by
  rw [print_eq]
  rfl

theorem print_retold (r : Replay) (t : Turn) (transcript : Array String) (patience : Nat) :
    (r.retold transcript patience).print t =
      (r.print t).retold (transcript ++ (turnLines r.isJson t).toArray) patience := by
  rw [print_eq, print_eq]
  rfl

/-! ## Answers -/

/-- What comes of the action that is asked for. -/
def answerTo (r : Replay) (request : ActionRequest) : Answer :=
  (r.actions.run request.action request.params).within request.action r.actionTimeout

/-- The replay when an action has been run. -/
def elapse (r : Replay) (request : ActionRequest) : Replay :=
  let elapsed := (r.elapsed.add (r.answerTo request).delay).nextTick
  { r with elapsed, session := r.session.tick elapsed }

theorem answer_cons (r : Replay) (request : ActionRequest) (rest : List ActionRequest) :
    r.answer (request :: rest) =
      match (r.elapse request).session.completeCall request.call (r.answerTo request).result with
      | .error e => (r.elapse request, .error (.session e))
      | .ok (turn, session) =>
        (({ r.elapse request with session } : Replay).answer rest).map id
          (Except.map (turn :: ·)) := by
  rw [answer]
  cases completed : (r.elapse request).session.completeCall request.call
    (r.answerTo request).result with
  | error e =>
    simp only [elapse, answerTo] at completed ⊢
    simp only [completed]
  | ok p =>
    simp only [elapse, answerTo] at completed ⊢
    simp only [completed]
    split <;> next answers => simp [answers, Except.map]

theorem answer_retold (requests : List ActionRequest) (r : Replay) (transcript : Array String)
    (patience : Nat) : (r.retold transcript patience).answer requests =
      (r.answer requests).map (·.retold transcript patience) id := by
  induction requests generalizing r with
  | nil => rfl
  | cons request rest ih =>
    rw [answer_cons, answer_cons]
    show (match (r.elapse request).session.completeCall request.call
        (r.answerTo request).result with
      | .error e => _
      | .ok (turn, session) => _) = _
    split
    · rfl
    · next turn session _ =>
      have later := ih { r.elapse request with session }
      show ((({ r.elapse request with session } : Replay).retold transcript patience).answer
        rest).map _ _ = _
      rw [later]
      rfl

/-- The actions that have been asked for are answered. -/
def answered (r : Replay) : Replay × Except ReplayError (List Turn) :=
  ({ r with session := r.session.takeRequests.2 } : Replay).answer r.session.takeRequests.1

theorem answered_retold (r : Replay) (transcript : Array String) (patience : Nat) :
    (r.retold transcript patience).answered = r.answered.map (·.retold transcript patience) id :=
  answer_retold r.session.takeRequests.1 { r with session := r.session.takeRequests.2 } transcript
    patience

theorem transcript_answered {x : Except ReplayError (List Turn)} (h : r.answered = (r', x)) :
    r'.transcript = r.transcript := by
  have same := answered_retold r r.transcript r.patience
  have answers : (r.retold r.transcript r.patience).answered = (r', x) := h
  rw [answers, h] at same
  exact congrArg (fun x => x.1.transcript) same

/-! ## Turns -/

/-- How turns are written down one after the other, each with all that it asks for. -/
inductive Records : Nat → List Turn → Replay → Replay × Option ReplayError → Prop
  | done (n r) : Records n [] r (r, none)
  | endless (t pending r) : Records 0 (t :: pending) r (r, some .endless)
  | fatal (n) {t} (pending r) (h : t.isFatal = true) :
    Records (n + 1) (t :: pending) r ({ r.print t with isDiscarded := true }, none)
  | refused (n) {t} (pending) {r r' e} (h : ¬ t.isFatal = true)
    (answers : (r.print t).answered = (r', .error e)) :
    Records (n + 1) (t :: pending) r (r', some e)
  | more {n t pending r r' turns x} (h : ¬ t.isFatal = true)
    (answers : (r.print t).answered = (r', .ok turns))
    (rest : Records n (pending ++ turns) r' x) : Records (n + 1) (t :: pending) r x

theorem recordAll_cons (n : Nat) (t : Turn) (pending : List Turn) (r : Replay) :
    recordAll (n + 1) (t :: pending) r =
      if t.isFatal then ({ r.print t with isDiscarded := true }, none)
      else
        match (r.print t).answered with
        | (r, .error e) => (r, some e)
        | (r, .ok turns) => recordAll n (pending ++ turns) r := rfl

theorem Records.recordAll_eq {n : Nat} {turns : List Turn} {x : Replay × Option ReplayError}
    (h : Records n turns r x) : recordAll n turns r = x := by
  induction h with
  | done n r => cases n <;> rfl
  | endless => rfl
  | fatal n pending r h => rw [recordAll_cons, if_pos h]
  | refused n pending h answers => rw [recordAll_cons, if_neg h, answers]
  | more h answers _ ih =>
    rw [recordAll_cons, if_neg h, answers]
    exact ih

theorem records (n : Nat) (turns : List Turn) (r : Replay) :
    Records n turns r (recordAll n turns r) := by
  induction n generalizing turns r with
  | zero =>
    cases turns with
    | nil => exact .done 0 r
    | cons t pending => exact .endless t pending r
  | succ n ih =>
    cases turns with
    | nil => exact .done (n + 1) r
    | cons t pending =>
      rw [recordAll_cons]
      split
      · next h => exact .fatal n pending r h
      · next h =>
        rcases answers : (r.print t).answered with ⟨r', e | turns⟩
        · exact .refused n pending h answers
        · exact .more h answers (ih (pending ++ turns) r')

/-! ## Acts that do not depend on what has been written down -/

/-- What comes of an act does not depend on what has been written down before, nor on how long the
act and the replay may go on, as long as that is enough. -/
def Indifferent (act : Nat → Replay → Replay × Option ReplayError) (n : Nat) (r : Replay) : Prop :=
  ∀ r' o, act n r = (r', o) → o ≠ some .endless →
    ∃ lines, r'.transcript = r.transcript ++ lines ∧
      ∀ n' ≥ n, ∀ transcript, ∀ patience ≥ r.patience,
        act n' (r.retold transcript patience) = (r'.retold (transcript ++ lines) patience, o)

/-- Goes on with what has come of an act, unless the act has failed. -/
def andThen (next : Replay → Replay × Option ReplayError) :
    Replay × Option ReplayError → Replay × Option ReplayError
  | (r, some e) => (r, some e)
  | (r, none) => next r

variable {act next : Nat → Replay → Replay × Option ReplayError} {n m : Nat}

theorem Indifferent.patience_eq (h : Indifferent act n r) (eq : act n r = (r', o))
    (reached : o ≠ some .endless) : r'.patience = r.patience := by
  obtain ⟨lines, -, same⟩ := h r' o eq reached
  have again := same n (Nat.le_refl n) r.transcript r.patience (Nat.le_refl _)
  have again : (r', o) = (r'.retold (r.transcript ++ lines) r.patience, o) := eq.symm.trans again
  exact congrArg (fun x => x.1.patience) again

/-- An act that has been given more time does the same. -/
theorem Indifferent.more (h : Indifferent act n r) (eq : act n r = (r', o))
    (reached : o ≠ some .endless) (le : n ≤ m) : act m r = (r', o) := by
  obtain ⟨lines, told, same⟩ := h r' o eq reached
  have same := same m le r.transcript r.patience (Nat.le_refl _)
  have again : r'.retold (r.transcript ++ lines) r.patience = r' := by
    rw [← told, ← h.patience_eq eq reached]
    rfl
  rw [again] at same
  exact same

/-- Whatever comes of an act is what is known to come of it with more time and more patience. -/
theorem Indifferent.agrees {r₂ : Replay} {transcript said : Array String} {patience : Nat}
    (h : Indifferent act n (r.retold transcript patience))
    (eq : act n (r.retold transcript patience) = (r', o)) (reached : o ≠ some .endless)
    {patience' : Nat} (le : n ≤ m) (le' : patience ≤ patience')
    (known : act m (r.retold transcript patience') = (r₂.retold said patience', none)) :
    (r', o) = (r₂.retold said patience, none) := by
  obtain ⟨lines, told, same⟩ := h r' o eq reached
  have both := (same m le transcript patience' le').symm.trans known
  obtain ⟨first, rfl⟩ := Prod.mk.inj both
  have lines : r'.transcript = said := told.trans (congrArg (·.transcript) first)
  have patient : r'.patience = patience := h.patience_eq eq reached
  have back : r'.retold said patience = r₂.retold said patience :=
    congrArg (·.retold said patience) first
  rw [← back, ← lines, ← patient]
  rfl

/-- An act that does nothing is indifferent. -/
theorem indifferent_of_none
    (h : ∀ n' ≥ n, ∀ transcript patience, act n' (r.retold transcript patience) =
      (r.retold transcript patience, none)) : Indifferent act n r := by
  intro r' o eq _
  have same := h n (Nat.le_refl n) r.transcript r.patience
  obtain ⟨rfl, rfl⟩ := Prod.mk.inj (eq.symm.trans same)
  refine ⟨#[], (Array.append_empty ..).symm, fun n' le transcript patience _ => ?_⟩
  rw [h n' le, Array.append_empty]
  rfl

/-- One act after another is indifferent if each of them is. -/
theorem Indifferent.andThen (h : Indifferent act n r) (h' : ∀ r', Indifferent next n r') :
    Indifferent (fun n r => andThen (next n) (act n r)) n r := by
  intro r' o eq reached
  dsimp only at eq ⊢
  rcases hx : act n r with ⟨r₁, _ | e⟩
  · rw [hx] at eq
    obtain ⟨lines, told, same⟩ := h r₁ none hx nofun
    obtain ⟨more, told', same'⟩ := h' r₁ r' o eq reached
    refine ⟨lines ++ more, ?_, fun n' le transcript patience enough => ?_⟩
    · rw [told', told, Array.append_assoc]
    · rw [same n' le transcript patience enough, ← Array.append_assoc]
      exact same' n' le _ patience (h.patience_eq hx nofun ▸ enough)
  · rw [hx] at eq
    obtain ⟨rfl, rfl⟩ := Prod.mk.inj eq
    obtain ⟨lines, told, same⟩ := h r₁ (some e) hx reached
    refine ⟨lines, told, fun n' le transcript patience enough => ?_⟩
    rw [same n' le transcript patience enough]
    rfl

/-- Turns are written down in the same way after other lines, and with more time. -/
theorem Records.retold {turns : List Turn} {x : Replay × Option ReplayError}
    (h : Records n turns r x) (reached : x.2 ≠ some .endless) :
    ∃ lines, x.1.transcript = r.transcript ++ lines ∧ ∀ n' ≥ n, ∀ transcript patience,
      Records n' turns (r.retold transcript patience)
        (x.1.retold (transcript ++ lines) patience, x.2) := by
  induction h with
  | done n r =>
    refine ⟨#[], (Array.append_empty ..).symm, fun n' _ transcript patience => ?_⟩
    rw [Array.append_empty]
    exact .done n' _
  | endless => exact absurd rfl reached
  | @fatal n t pending r h =>
    refine ⟨(turnLines r.isJson t).toArray, by rw [print_eq]; rfl, ?_⟩
    intro n' le transcript patience
    obtain ⟨n', rfl⟩ := Nat.exists_eq_add_of_lt le
    have again := Records.fatal (n + n') pending (r.retold transcript patience) h
    rw [print_retold] at again
    exact again
  | @refused n t pending r r' e h answers =>
    have told := transcript_answered answers
    refine ⟨(turnLines r.isJson t).toArray, told.trans (by rw [print_eq]; rfl), ?_⟩
    intro n' le transcript patience
    obtain ⟨n', rfl⟩ := Nat.exists_eq_add_of_lt le
    refine .refused (n + n') pending h ?_
    rw [print_retold, answered_retold, answers]
    rfl
  | @more n t pending r r' turns x h answers _ ih =>
    have told := transcript_answered answers
    obtain ⟨lines, told', same⟩ := ih reached
    refine ⟨(turnLines r.isJson t).toArray ++ lines, ?_, fun n' le transcript patience => ?_⟩
    · rw [told', told, print_eq]
      exact Array.append_assoc ..
    · obtain ⟨n', rfl⟩ := Nat.exists_eq_add_of_lt le
      rw [← Array.append_assoc]
      -- The lines of this turn come first, and the ones of later turns follow.
      refine .more h ?_ (same (n + n') (Nat.le_add_right ..) _ patience)
      rw [print_retold, answered_retold, answers]
      rfl

theorem indifferent_recordAll (n : Nat) (turns : List Turn) (r : Replay) :
    Indifferent (fun n => recordAll n turns) n r := by
  intro r' o eq reached
  have recorded : Records n turns r (r', o) := eq ▸ records n turns r
  obtain ⟨lines, told, same⟩ := recorded.retold reached
  exact ⟨lines, told, fun n' le transcript patience _ =>
    (same n' le transcript patience).recordAll_eq⟩

/-- What comes of an input is indifferent, since the session does not know of the transcript. -/
theorem indifferent_record (came : Session → Except SessionError (Turn × Session)) (n : Nat)
    (r : Replay) : Indifferent (fun _ r => r.record (came r.session)) n r := by
  intro r' o eq reached
  dsimp only at eq
  cases input : came r.session with
  | error e =>
    rw [input] at eq
    obtain ⟨rfl, rfl⟩ := Prod.mk.inj eq
    refine ⟨#[], (Array.append_empty ..).symm, fun n' _ transcript patience _ => ?_⟩
    show (r.retold transcript patience).record (came r.session) = _
    rw [input, Array.append_empty]
    rfl
  | ok p =>
    rw [input] at eq
    obtain ⟨lines, told, same⟩ := indifferent_recordAll _ _ _ _ _ eq reached
    refine ⟨lines, told, fun n' _ transcript patience enough => ?_⟩
    show (r.retold transcript patience).record (came r.session) = _
    rw [input]
    exact same patience enough transcript patience enough

end Replay

end Dialogue
