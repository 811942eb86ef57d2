import Descent.Proofs.Token.Places

/-! The levels of a tree. A level is gathered breadth first, and yet its tokens stand in the order
of the walk: they are the tokens of the walk whose places have one length. -/

namespace Descent.Token

mutual

/-- The number of levels below a token. -/
def height : Token → Nat
  | leaf _ _ => 0
  | node _ children => heights children

/-- The number of levels from the tokens on. -/
def heights : List Token → Nat
  | [] => 0
  | t :: ts => max (height t + 1) (heights ts)

end

theorem heights_lt_succ_iff {ts : List Token} {n : Nat} :
    heights ts < n + 1 ↔ ∀ t ∈ ts, t.height < n := by
  induction ts with
  | nil => simp [heights]
  | cons t ts ih =>
      rw [heights, Nat.max_lt, ih, List.forall_mem_cons, Nat.add_lt_add_iff_right]

theorem height_lt_succ_iff {t : Token} {n : Nat} :
    t.height < n + 1 ↔ ∀ c ∈ t.children, c.height < n := by
  cases t with
  | leaf type text => simp [height, children]
  | node type children => exact heights_lt_succ_iff

theorem levelBelow_succ (ts : List Token) (n : Nat) :
    levelBelow ts (n + 1) = levelBelow (ts.flatMap children) n := by
  cases ts with
  | nil => cases n <;> rfl
  | cons t ts => rfl

theorem levelBelow_add (ts : List Token) (m n : Nat) :
    levelBelow ts (m + n) = levelBelow (levelBelow ts m) n := by
  induction m generalizing ts with
  | zero => rw [Nat.zero_add, levelBelow]
  | succ m ih => rw [Nat.succ_add, levelBelow_succ, ih, levelBelow_succ]

/-- Going down from several tokens at once is going down from each. -/
theorem levelBelow_eq_flatMap (ts : List Token) (n : Nat) :
    levelBelow ts n = ts.flatMap (·.level n) := by
  induction n generalizing ts with
  | zero => exact (List.flatMap_singleton' ts).symm
  | succ n ih =>
      rw [levelBelow_succ, ih, List.flatMap_assoc]
      refine List.flatMap_congr fun t _ => ?_
      rw [level, levelBelow_succ, List.flatMap_singleton, ih]

@[simp] theorem level_zero (t : Token) : t.level 0 = [t] := rfl

theorem level_add (t : Token) (m n : Nat) : t.level (m + n) = (t.level m).flatMap (·.level n) := by
  rw [level, levelBelow_add, levelBelow_eq_flatMap _ n, level]

theorem level_succ (t : Token) (n : Nat) : t.level (n + 1) = t.children.flatMap (·.level n) := by
  rw [level, levelBelow_succ, List.flatMap_singleton, levelBelow_eq_flatMap]

/-- A level is the part of the walk at one depth. -/
theorem level_eq_filter (t : Token) (n : Nat) :
    t.level n = (t.placed.filter (·.1.length = n)).map (·.2) := by
  induction n generalizing t with
  | zero =>
      have hbelow : (placedFrom 0 t.children).filter (·.1.length = 0) = [] := by
        rw [List.filter_eq_nil_iff]
        intro entry hentry
        obtain ⟨_, _, _, -, -, rfl⟩ := mem_placedFrom.1 hentry
        simp [behind]
      rw [placed_eq, List.filter_cons_of_pos (by simp), hbelow]
      rfl
  | succ n ih =>
      have hbelow := @filter_placedFrom t.children (·.1.length = n + 1)
        (fun _ entry => entry.1.length = n) fun i c _ entry => by simp [behind]
      rw [placed_eq, List.filter_cons_of_neg (by simp), hbelow, level_succ]
      exact List.flatMap_congr fun c _ => ih c

theorem level_eq_nil_iff {t : Token} {n : Nat} : t.level n = [] ↔ t.height < n := by
  induction n generalizing t with
  | zero => simp
  | succ n ih =>
      rw [level_succ, List.flatMap_eq_nil_iff, height_lt_succ_iff]
      exact forall₂_congr fun c _ => ih

theorem length_le_height {t : Token} {entry : List Nat × Token} (h : entry ∈ t.placed) :
    entry.1.length ≤ t.height := by
  have hlevel : entry.2 ∈ t.level entry.1.length := by
    rw [level_eq_filter]
    exact List.mem_map_of_mem (List.mem_filter.2 ⟨h, decide_eq_true rfl⟩)
  refine Nat.le_of_not_lt fun hlt => ?_
  rw [level_eq_nil_iff.2 hlt] at hlevel
  cases hlevel

/-- Sorting a list into classes by a number keeps each entry once. -/
theorem perm_flatMap_range {α : Type} (key : α → Nat) (xs : List α) (n : Nat) :
    ((List.range n).flatMap fun k => xs.filter (key · = k)).Perm (xs.filter (key · < n)) := by
  induction n with
  | zero => simp
  | succ n ih =>
      -- The entries below `n + 1` are those that are sorted already and the class of `n`.
      have hlt : (xs.filter (key · < n + 1)).filter (key · < n) = xs.filter (key · < n) := by
        rw [List.filter_filter]
        exact List.filter_congr fun x _ => by grind
      have heq : (xs.filter (key · < n + 1)).filter (fun x => !decide (key x < n)) =
          xs.filter (key · = n) := by
        rw [List.filter_filter]
        exact List.filter_congr fun x _ => by grind
      have hsplit := List.filter_append_perm (key · < n) (xs.filter (key · < n + 1))
      rw [hlt, heq] at hsplit
      rw [List.range_succ, List.flatMap_append, List.flatMap_singleton]
      exact (ih.append_right _).trans hsplit

/-- The levels below the top together are the walk, sorted by depth. -/
theorem levels_perm (t : Token) :
    ((List.range' 1 t.height).flatMap t.level).Perm t.descendants := by
  have hall : t.placed.filter (·.1.length < t.height + 1) = t.placed :=
    List.filter_eq_self.2 fun entry hentry =>
      decide_eq_true (Nat.lt_succ_of_le (length_le_height hentry))
  have hlevels : ((List.range (t.height + 1)).flatMap t.level).Perm (t.placed.map (·.2)) := by
    have hperm := (perm_flatMap_range (·.1.length) t.placed (t.height + 1)).map (·.2)
    rw [hall, List.map_flatMap] at hperm
    simpa only [← level_eq_filter] using hperm
  rw [t.isWalk_placed.tokens, List.range_eq_range', List.range'_succ, List.flatMap_cons] at hlevels
  exact hlevels.cons_inv

/-- The levels partition the walk. Level `n` is the part of the walk at depth `n` in its order, a
level of the levels is a level, the levels from the first down to the height hold every token below
`t` once, and the levels beyond the height are the empty ones. -/
theorem levels_partition (t : Token) :
    t.IsWalk t.placed ∧
    (∀ n, t.level n = (t.placed.filter (·.1.length = n)).map (·.2)) ∧
    (∀ m n, t.level (m + n) = (t.level m).flatMap (·.level n)) ∧
    ((List.range' 1 t.height).flatMap t.level).Perm t.descendants ∧
    ∀ n, t.level n = [] ↔ t.height < n :=
  ⟨t.isWalk_placed, t.level_eq_filter, t.level_add, t.levels_perm, fun _ => level_eq_nil_iff⟩

end Descent.Token
