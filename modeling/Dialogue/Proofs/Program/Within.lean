import Dialogue.Proofs.Program.Correctness

/-!
# Statements within statements

A statement may stand deep within another one: in a branch, in the body of a loop, in what is done
on failure or when time is up. What holds of a statement whenever it holds of all statements within
it holds of every statement.

When the branches of a choice are opened, statements change their places, but they are the same
statements. So the parts that are laid out for a choice are those of statements within it.

## Main definitions

* `Statement.inner`, `Statement.allIn` — the statements within a statement, and those of a body
* `Statement.branches?` — the branches of a choice

## Main results

* `Statement.induct` — induction over what stands within
* `Statement.mem_of_mem_openBranches` — opened branches consist of statements within the choice
* `Statement.exists_of_mem_flatBranches` — and so do flattened ones
-/

namespace Dialogue.Statement

variable {flow : String} {s t : Statement} {b body : List Statement} {bs : List (List Statement)}

mutual

/-- The statements within a statement, at any depth. -/
def inner : Statement → List Statement
  | await _ _ onFailure => allInHandler onFailure
  | execute _ _ _ onFailure => allInHandler onFailure
  | sequence body => allIn body
  | loop body => allIn body
  | alternative branches => allInBranches branches
  | waitAny branches _ onTimeout => allInBranches branches ++ allIn onTimeout
  | branch _ thenBody elseBody => allIn thenBody ++ allIn elseBody
  | expect _ | send .. | start .. | assign .. | abort _ => []

/-- The statements of a body, and those within them. -/
def allIn : List Statement → List Statement
  | [] => []
  | s :: rest => s :: (inner s ++ allIn rest)

/-- The statements of the branches of a choice, and those within them. -/
def allInBranches : List (List Statement) → List Statement
  | [] => []
  | b :: rest => allIn b ++ allInBranches rest

/-- The statements of a handler, if there is one, and those within them. -/
def allInHandler : Option (List Statement) → List Statement
  | none => []
  | some body => allIn body

end

/-- The branches of a choice. -/
def branches? : Statement → Option (List (List Statement))
  | alternative branches | waitAny branches _ _ => some branches
  | _ => none

/-- The bodies that a statement is made of. -/
def bodies : Statement → List (List Statement)
  | await _ _ onFailure | execute _ _ _ onFailure => onFailure.toList
  | sequence body | loop body => [body]
  | alternative branches => branches
  | waitAny branches _ onTimeout => branches ++ [onTimeout]
  | branch _ thenBody elseBody => [thenBody, elseBody]
  | expect _ | send .. | start .. | assign .. | abort _ => []

/-! ## Induction -/

section Induction

variable {Q : Statement → Prop}

mutual

theorem forall_inner (step : ∀ s, (∀ t ∈ inner s, Q t) → Q s) : ∀ s, ∀ t ∈ inner s, Q t
  | await _ _ onFailure => by
    rw [inner]
    exact forall_allInHandler step onFailure
  | execute _ _ _ onFailure => by
    rw [inner]
    exact forall_allInHandler step onFailure
  | sequence body => by
    rw [inner]
    exact forall_allIn step body
  | loop body => by
    rw [inner]
    exact forall_allIn step body
  | alternative branches => by
    rw [inner]
    exact forall_allInBranches step branches
  | waitAny branches _ onTimeout => by
    rw [inner, List.forall_mem_append]
    exact ⟨forall_allInBranches step branches, forall_allIn step onTimeout⟩
  | branch _ thenBody elseBody => by
    rw [inner, List.forall_mem_append]
    exact ⟨forall_allIn step thenBody, forall_allIn step elseBody⟩
  | expect _ | send .. | start .. | assign .. | abort _ => by simp [inner]

theorem forall_allIn (step : ∀ s, (∀ t ∈ inner s, Q t) → Q s) : ∀ body, ∀ t ∈ allIn body, Q t
  | [] => by simp [allIn]
  | s :: rest => by
    rw [allIn, List.forall_mem_cons, List.forall_mem_append]
    exact ⟨step s (forall_inner step s), forall_inner step s, forall_allIn step rest⟩

theorem forall_allInBranches (step : ∀ s, (∀ t ∈ inner s, Q t) → Q s) :
    ∀ bs, ∀ t ∈ allInBranches bs, Q t
  | [] => by simp [allInBranches]
  | b :: rest => by
    rw [allInBranches, List.forall_mem_append]
    exact ⟨forall_allIn step b, forall_allInBranches step rest⟩

theorem forall_allInHandler (step : ∀ s, (∀ t ∈ inner s, Q t) → Q s) :
    ∀ onFailure, ∀ t ∈ allInHandler onFailure, Q t
  | none => by simp [allInHandler]
  | some body => by
    rw [allInHandler]
    exact forall_allIn step body

end

/-- What holds of a statement if it holds of all statements within it holds of every statement. -/
theorem induct (step : ∀ s, (∀ t ∈ inner s, Q t) → Q s) (s : Statement) : Q s :=
  step s (forall_inner step s)

end Induction

/-! ## What stands within -/

theorem mem_allIn_of_mem (h : s ∈ body) : s ∈ allIn body := by
  induction body with
  | nil => cases h
  | cons t rest ih =>
    rw [allIn, List.mem_cons, List.mem_append]
    rcases List.mem_cons.1 h with rfl | later
    · exact .inl rfl
    · exact .inr (.inr (ih later))

theorem mem_allIn_of_inner (h : s ∈ body) (ht : t ∈ inner s) : t ∈ allIn body := by
  induction body with
  | nil => cases h
  | cons u rest ih =>
    rw [allIn, List.mem_cons, List.mem_append]
    rcases List.mem_cons.1 h with rfl | later
    · exact .inr (.inl ht)
    · exact .inr (.inr (ih later))

/-- Whatever is in a body is one of its statements, or stands within one. -/
theorem mem_allIn_iff : t ∈ allIn body ↔ ∃ s ∈ body, t = s ∨ t ∈ inner s := by
  constructor
  · intro h
    induction body with
    | nil => simp [allIn] at h
    | cons s rest ih =>
      rw [allIn, List.mem_cons, List.mem_append] at h
      rcases h with rfl | here | later
      · exact ⟨_, List.mem_cons_self, .inl rfl⟩
      · exact ⟨s, List.mem_cons_self, .inr here⟩
      · obtain ⟨u, hu, found⟩ := ih later
        exact ⟨u, List.mem_cons_of_mem _ hu, found⟩
  · rintro ⟨s, hs, rfl | within⟩
    · exact mem_allIn_of_mem hs
    · exact mem_allIn_of_inner hs within

theorem mem_allInBranches_iff : t ∈ allInBranches bs ↔ ∃ b ∈ bs, t ∈ allIn b := by
  induction bs with
  | nil => simp [allInBranches]
  | cons b rest ih => simp [allInBranches, ih]

/-- Whatever is within a statement is in one of its bodies. -/
theorem mem_inner_iff : t ∈ inner s ↔ ∃ b ∈ bodies s, t ∈ allIn b := by
  cases s with
  | await _ _ onFailure | execute _ _ _ onFailure =>
    cases onFailure <;> simp [inner, bodies, allInHandler]
  | waitAny => simp [inner, bodies, mem_allInBranches_iff, or_and_right, exists_or]
  | alternative => simp [inner, bodies, mem_allInBranches_iff]
  | _ => simp [inner, bodies]

theorem mem_inner_of_mem (hb : b ∈ bodies s) (h : t ∈ b) : t ∈ inner s :=
  mem_inner_iff.2 ⟨b, hb, mem_allIn_of_mem h⟩

theorem mem_inner_of_branches? (h : s.branches? = some bs) (ht : t ∈ allInBranches bs) :
    t ∈ inner s := by
  cases s with
  | alternative =>
    cases h
    exact ht
  | waitAny =>
    cases h
    exact List.mem_append_left _ ht
  | _ => cases h

/-- What stands within a statement that stands within another one stands within that one. -/
theorem inner_trans (s : Statement) : ∀ t ∈ inner s, ∀ u ∈ inner t, u ∈ inner s := by
  -- The induction is on the outermost one. The one in between is in one of its bodies, or deeper.
  induction s using induct with
  | step s ih =>
    intro t ht u hu
    obtain ⟨b, hb, ht⟩ := mem_inner_iff.1 ht
    refine mem_inner_iff.2 ⟨b, hb, ?_⟩
    obtain ⟨r, hr, rfl | within⟩ := mem_allIn_iff.1 ht
    · exact mem_allIn_of_inner hr hu
    · exact mem_allIn_of_inner hr (ih r (mem_inner_of_mem hb hr) t within u hu)

theorem inner_subset_allIn (h : s ∈ allIn body) : inner s ⊆ allIn body := by
  intro t ht
  obtain ⟨r, hr, rfl | within⟩ := mem_allIn_iff.1 h
  · exact mem_allIn_of_inner hr ht
  · exact mem_allIn_of_inner hr (inner_trans r s within t ht)

/-! ## Opened branches -/

mutual

theorem mem_of_mem_openBranch : ∀ b, ∀ o ∈ openBranch b, ∀ s ∈ o, s ∈ allIn b
  | [] => by simp [openBranch]
  | alternative inner :: rest => by
    intro o ho s hs
    rw [openBranch] at ho
    obtain ⟨front, hfront, rfl⟩ := List.mem_map.1 ho
    rw [allIn, Statement.inner]
    -- What stands behind the opened statement is copied behind each of its branches.
    rcases List.mem_append.1 hs with first | behind
    · have found := mem_of_mem_openBranches inner front hfront s first
      exact List.mem_cons_of_mem _ (List.mem_append_left _ found)
    · exact List.mem_cons_of_mem _ (List.mem_append_right _ (mem_allIn_of_mem behind))
  | sequence body :: rest => by
    intro o ho s hs
    rw [openBranch] at ho
    split at ho
    · obtain rfl := List.mem_singleton.1 ho
      exact mem_allIn_of_mem hs
    · obtain ⟨front, hfront, rfl⟩ := List.mem_map.1 ho
      rw [allIn, Statement.inner]
      rcases List.mem_append.1 hs with first | behind
      · have found := mem_of_mem_openBranch body front hfront s first
        exact List.mem_cons_of_mem _ (List.mem_append_left _ found)
      · exact List.mem_cons_of_mem _ (List.mem_append_right _ (mem_allIn_of_mem behind))
  | expect .. :: _ | send .. :: _ | start .. :: _ | await .. :: _ | loop .. :: _
  | waitAny .. :: _ | branch .. :: _ | assign .. :: _ | execute .. :: _ | abort .. :: _ => by
    intro o ho s hs
    rw [openBranch] at ho
    · obtain rfl := List.mem_singleton.1 ho
      exact mem_allIn_of_mem hs
    · simp
    · simp

/-- Opened branches consist of statements within the choice. -/
theorem mem_of_mem_openBranches : ∀ bs, ∀ o ∈ openBranches bs, ∀ s ∈ o, s ∈ allInBranches bs
  | [] => by simp [openBranches]
  | b :: rest => by
    intro o ho s hs
    rw [openBranches] at ho
    rw [allInBranches]
    rcases List.mem_append.1 ho with first | later
    · exact List.mem_append_left _ (mem_of_mem_openBranch b o first s hs)
    · exact List.mem_append_right _ (mem_of_mem_openBranches rest o later s hs)

end

theorem parts_eq_map (flow : String) (body : List Statement) :
    parts flow body = body.map (part flow) := by
  induction body with
  | nil => rw [parts, List.map_nil]
  | cons s rest ih => rw [parts, ih, List.map_cons]

/-- The parts that are laid out for a choice are those of statements within it. -/
theorem exists_of_mem_flatBranches {ps : List Part} {p : Part} (h : ps ∈ flatBranches flow bs)
    (hp : p ∈ ps) : ∃ s ∈ allInBranches bs, part flow s = p := by
  rw [parts_openBranches] at h
  obtain ⟨o, ho, rfl⟩ := List.mem_map.1 h
  rw [parts_eq_map] at hp
  obtain ⟨s, hs, rfl⟩ := List.mem_map.1 hp
  exact ⟨s, mem_of_mem_openBranches bs o ho s hs, rfl⟩

end Dialogue.Statement
