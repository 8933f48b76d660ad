import Questionnaire.Expr.Memo

/-!
# What is remembered is what would be read

A memo holds, under each text that was read before and is an expression, the expression that the text writes.  Reading
a text keeps that, and so by induction over the texts each is given the expression that it would be given without a
memo.  It is remembered from its second time on.
-/
namespace Questionnaire.Memo

variable {memo : Memo} {earlier : List String}

/-- A memo after some texts were read. -/
def Remembers (memo : Memo) (earlier : List String) : Prop :=
  ∀ source, Table.find? memo source = if source ∈ earlier then (Expr.ofText source).toOption else none

theorem remembers_nil : Remembers [] [] := fun _ => rfl

/-- A memo gives what reading the text would give. -/
theorem Remembers.parse_fst (h : memo.Remembers earlier) (source : String) :
    (memo.parse source).1 = (Expr.ofText source).map fun x => (x, decide (source ∈ earlier)) := by
  rw [Memo.parse, h source]
  cases read : Expr.ofText source with
  | error failure =>
    have forgotten : (Except.error failure : Except Expr.SourceError Expr).toOption = none := rfl
    rw [forgotten, ite_self]
    rfl
  | ok x => by_cases known : source ∈ earlier <;> simp [known, Except.map, Except.toOption]

/-- A text that was read before, or that is no expression, leaves nothing new to remember. -/
theorem Remembers.cons (h : memo.Remembers earlier) {source : String}
    (settled : source ∈ earlier ∨ (Expr.ofText source).toOption = none) : memo.Remembers (source :: earlier) := by
  intro asked
  by_cases same : asked = source
  · subst same
    rw [h asked, if_pos List.mem_cons_self]
    rcases settled with known | nothing
    · rw [if_pos known]
    · rw [nothing, ite_self]
  · rw [h asked]
    simp [same]

theorem Remembers.set (h : memo.Remembers earlier) {source : String} {x : Expr} (read : Expr.ofText source = .ok x) :
    Remembers (Table.set source x memo) (source :: earlier) := by
  intro asked
  by_cases same : asked = source
  · subst same
    rw [Table.find?_set_self, if_pos List.mem_cons_self, read]
    rfl
  · rw [Table.find?_set_of_differs memo x (beq_false_of_ne (Ne.symm same)), h asked]
    simp [same]

/-- Reading one more text. -/
theorem Remembers.parse_snd (h : memo.Remembers earlier) (source : String) :
    (memo.parse source).2.Remembers (source :: earlier) := by
  rw [Memo.parse, h source]
  cases read : Expr.ofText source with
  | error failure =>
    have kept := h.cons (Or.inr (congrArg Except.toOption read))
    split <;> exact kept
  | ok x =>
    by_cases known : source ∈ earlier
    · rw [if_pos known]
      exact h.cons (Or.inl known)
    · rw [if_neg known]
      exact h.set read

theorem Remembers.getElem?_parseAll (h : memo.Remembers earlier) (before after : List String) (source : String) :
    (memo.parseAll (before ++ source :: after))[before.length]? =
      some ((Expr.ofText source).map fun x => (x, decide (source ∈ before ∨ source ∈ earlier))) := by
  induction before generalizing memo earlier with
  | nil =>
    rw [List.nil_append, parseAll, h.parse_fst]
    simp
  | cons first rest ih =>
    rw [List.cons_append, parseAll, List.length_cons, List.getElem?_cons_succ, ih (h.parse_snd first)]
    simp [or_left_comm, or_assoc]

/-- Of texts that are read one after the other each gives what it would give on its own, and is remembered if it is an
expression that came before. -/
theorem getElem?_parseAll (before after : List String) (source : String) :
    (parseAll [] (before ++ source :: after))[before.length]? =
      some ((Expr.ofText source).map fun x => (x, decide (source ∈ before))) := by
  simpa using remembers_nil.getElem?_parseAll before after source

end Questionnaire.Memo
