import Descent.Record

/-! Logs that are joined without copying, since an evaluation joins the log of every step to that of
the step around it. The list of the records is the view on which two logs are compared. -/

namespace Descent

inductive Log where
  | empty
  | record (r : Record)
  | join (first second : Log)

namespace Log

/-- The records in front of a list. -/
def toListBefore : Log → List Record → List Record
  | empty, rest => rest
  | record r, rest => r :: rest
  | join first second, rest => first.toListBefore (second.toListBefore rest)

def toList (l : Log) : List Record := l.toListBefore []

def append : Log → Log → Log
  | empty, l => l
  | l, empty => l
  | l, k => join l k

instance : Append Log := ⟨append⟩

theorem toListBefore_eq (l : Log) (rest : List Record) :
    l.toListBefore rest = l.toList ++ rest := by
  induction l generalizing rest with
  | empty => rfl
  | record r => rfl
  | join first second ih₁ ih₂ =>
    show first.toListBefore (second.toListBefore rest) =
      first.toListBefore (second.toListBefore []) ++ rest
    rw [ih₁, ih₁, ih₂, ih₂ [], List.append_nil, List.append_assoc]

@[simp] theorem toList_empty : empty.toList = [] := rfl

@[simp] theorem toList_record (r : Record) : (record r).toList = [r] := rfl

theorem toList_join (first second : Log) :
    (join first second).toList = first.toList ++ second.toList :=
  toListBefore_eq first second.toList

@[simp] theorem toList_append (l k : Log) : (l ++ k).toList = l.toList ++ k.toList := by
  show (append l k).toList = _
  unfold append
  split <;> simp [toList_join]

end Log

end Descent
