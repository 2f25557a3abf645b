import Cosmac.Proofs.KeyWaits

/-!
# What happens to the keys

A key of the pad is struck, down or up, and it is taken by a program that waits for keys. Two records
can be read off such a history. A key is held if its last stroke pressed it (`IsHeld`); a key that is
repeated while it is held is pressed again and stays held. And it is fresh if it is held and has not
been taken since the stroke that began the hold (`IsFresh`).

The keys of a machine are the second record. `Tracks` says so, together with what follows from it
for the past: a program has only taken fresh keys. Frames and strokes keep it, and a key that is
held and was taken is not taken again before it is released (`count_taken_le_one`).
-/

namespace Cosmac.Keypad

/-- Something that happens to a key of the pad. -/
inductive Happening where
  | stroke (k : Nibble) (down : Bool)
  /-- An instruction takes the key. -/
  | taken (k : Nibble)
  deriving DecidableEq

namespace Happening

variable {k j : Nibble} {down : Bool} {x : Happening}
  {history before between after : List Happening}

/-- The key that is struck, and whether it goes down. -/
def stroke? : Happening → Option (Nibble × Bool)
  | stroke k down => some (k, down)
  | taken _ => none

/-- Whether each stroke of a key pressed it, in order. -/
def strokesOf (k : Nibble) (history : List Happening) : List Bool :=
  (history.filterMap stroke?).filterMap fun (j, down) => if j = k then some down else none

/-- The last stroke of the key pressed it. -/
def IsHeld (k : Nibble) (history : List Happening) : Prop :=
  (strokesOf k history).getLast? = some true

/-- The key is held and has not been taken since its hold began. -/
def IsFresh (k : Nibble) (history : List Happening) : Prop :=
  ∃ before hold, history = before ++ .stroke k true :: hold ∧ ¬ IsHeld k before ∧
    .stroke k false ∉ hold ∧ .taken k ∉ hold

theorem strokesOf_append (k : Nibble) (first last : List Happening) :
    strokesOf k (first ++ last) = strokesOf k first ++ strokesOf k last := by
  simp [strokesOf]

theorem not_isHeld_nil (k : Nibble) : ¬ IsHeld k [] := nofun

/-- A stroke decides whether its own key is held. -/
theorem isHeld_stroke :
    IsHeld k (history ++ [.stroke j down]) ↔ if j = k then down = true else IsHeld k history := by
  by_cases same : j = k
  · simp [IsHeld, strokesOf, stroke?, same]
  · simp [IsHeld, strokesOf, stroke?, same]

/-- Taking a key does not release it. -/
theorem isHeld_taken : IsHeld k (history ++ [.taken j]) ↔ IsHeld k history := by
  have none : strokesOf k [.taken j] = [] := rfl
  rw [IsHeld, strokesOf_append, none, List.append_nil, IsHeld]

/-- No key is fresh before anything has happened. -/
theorem not_isFresh_nil (k : Nibble) : ¬ IsFresh k [] := by
  rintro ⟨before, hold, same, -⟩
  cases before <;> cases same

/-- What happened last is the point at which a history is split, or comes after it. -/
theorem split_snoc {y : Happening} (same : history ++ [x] = before ++ y :: after) :
    (history = before ∧ x = y ∧ after = []) ∨
      ∃ rest, after = rest ++ [x] ∧ history = before ++ y :: rest := by
  obtain rfl | ⟨rest, last, rfl⟩ := List.eq_nil_or_concat after
  · obtain ⟨rfl, tail⟩ := List.append_inj' same rfl
    cases tail
    exact .inl ⟨rfl, rfl, rfl⟩
  · rw [List.concat_eq_append, ← List.cons_append, ← List.append_assoc] at same
    obtain ⟨rfl, tail⟩ := List.append_inj' same rfl
    cases tail
    exact .inr ⟨rest, List.concat_eq_append, rfl⟩

/-- **How a key becomes fresh and stops being so.** -/
theorem isFresh_snoc :
    IsFresh k (history ++ [x]) ↔
      (x = .stroke k true ∧ ¬ IsHeld k history) ∨
        (IsFresh k history ∧ x ≠ .stroke k false ∧ x ≠ .taken k) := by
  constructor
  · rintro ⟨before, hold, same, unheld, unreleased, untaken⟩
    obtain ⟨rfl, rfl, rfl⟩ | ⟨hold, rfl, rfl⟩ := split_snoc same
    · exact .inl ⟨rfl, unheld⟩
    · rw [List.mem_append, List.mem_singleton, not_or] at unreleased untaken
      exact .inr ⟨⟨before, hold, rfl, unheld, unreleased.1, untaken.1⟩, Ne.symm unreleased.2,
        Ne.symm untaken.2⟩
  · rintro (⟨rfl, unheld⟩ | ⟨⟨before, hold, rfl, unheld, unreleased, untaken⟩, held, left⟩)
    · exact ⟨history, [], rfl, unheld, List.not_mem_nil, List.not_mem_nil⟩
    · refine ⟨before, hold ++ [x], by simp, unheld, ?_, ?_⟩
      · simp [unreleased, Ne.symm held]
      · simp [untaken, Ne.symm left]

/-- A key stays held unless it is released. -/
theorem IsHeld.snoc (held : IsHeld k history) (kept : x ≠ .stroke k false) :
    IsHeld k (history ++ [x]) := by
  cases x with
  | taken j => exact isHeld_taken.mpr held
  | stroke j down =>
    rw [isHeld_stroke]
    by_cases own : j = k
    · subst own
      rw [if_pos rfl]
      cases down with
      | true => rfl
      | false => exact absurd rfl kept
    · rw [if_neg own]
      exact held

/-- A hold lasts until the key is released. -/
theorem IsHeld.append (held : IsHeld k history) (unreleased : .stroke k false ∉ after) :
    IsHeld k (history ++ after) := by
  induction after generalizing history with
  | nil => rwa [List.append_nil]
  | cons x after ih =>
    rw [List.mem_cons, not_or] at unreleased
    rw [List.append_cons]
    exact ih (held.snoc (Ne.symm unreleased.1)) unreleased.2

/-- A fresh key is held. -/
theorem IsFresh.isHeld (fresh : IsFresh k history) : IsHeld k history := by
  obtain ⟨before, hold, rfl, -, unreleased, -⟩ := fresh
  have pressed : IsHeld k (before ++ [.stroke k true]) := by
    rw [isHeld_stroke, if_pos rfl]
  rw [List.append_cons]
  exact pressed.append unreleased

/-- Whenever a key was taken it was fresh. -/
def TakenFresh (history : List Happening) : Prop :=
  ∀ before k after, history = before ++ .taken k :: after → IsFresh k before

theorem takenFresh_nil : TakenFresh [] := by
  intro before k after same
  cases before <;> cases same

/-- What happens next keeps the history orderly if every key it takes is fresh. -/
theorem takenFresh_snoc (orderly : TakenFresh history) (fresh : ∀ k, x = .taken k → IsFresh k history) :
    TakenFresh (history ++ [x]) := by
  intro before k after same
  obtain ⟨rfl, rfl, rfl⟩ | ⟨rest, rfl, rfl⟩ := split_snoc same
  · exact fresh k rfl
  · exact orderly before k rest rfl

/-- A key that was taken was fresh before, whatever came after. -/
theorem TakenFresh.first (orderly : TakenFresh (before ++ .taken k :: between ++ after)) :
    IsFresh k before := by
  refine orderly before k (between ++ after) ?_
  rw [List.append_assoc, List.cons_append]

/-- **A key that is held and was taken is not taken again** before it is released. -/
theorem not_taken_of_spent (orderly : TakenFresh (before ++ between ++ after))
    (held : IsHeld k before) (spent : ¬ IsFresh k before)
    (unreleased : .stroke k false ∉ between) : .taken k ∉ between := by
  -- on the stretch without a release, of which more and more belongs to the past
  induction between generalizing before with
  | nil => exact List.not_mem_nil
  | cons x between ih =>
    rw [List.mem_cons, not_or] at unreleased ⊢
    have untaken : x ≠ .taken k := by
      rintro rfl
      exact spent orderly.first
    refine ⟨Ne.symm untaken, ih ?_ (held.snoc (Ne.symm unreleased.1)) ?_ unreleased.2⟩
    · rw [← List.append_cons]
      exact orderly
    · rw [isFresh_snoc]
      rintro (⟨-, unheld⟩ | ⟨fresh, -, -⟩)
      · exact unheld held
      · exact spent fresh

/-- **A key is taken at most once** before it is released. -/
theorem count_taken_le_one (orderly : TakenFresh (before ++ between ++ after))
    (unreleased : .stroke k false ∉ between) : between.count (.taken k) ≤ 1 := by
  induction between generalizing before with
  | nil => exact Nat.zero_le 1
  | cons x between ih =>
    rw [List.mem_cons, not_or] at unreleased
    have rest : TakenFresh (before ++ [x] ++ between ++ after) := by
      rw [← List.append_cons]
      exact orderly
    by_cases taken : x = .taken k
    · -- the first taking spends the hold, and the rest of the stretch cannot begin another one
      subst taken
      have fresh : IsFresh k before := orderly.first
      have spent : ¬ IsFresh k (before ++ [.taken k]) := by
        rw [isFresh_snoc]
        rintro (⟨stroke, -⟩ | ⟨-, -, left⟩)
        · cases stroke
        · exact left rfl
      have none := not_taken_of_spent rest (isHeld_taken.mpr fresh.isHeld) spent unreleased.2
      have once : (.taken k :: between).count (.taken k) = 1 := by
        rw [List.count_cons_self, List.count_eq_zero_of_not_mem none]
      exact Nat.le_of_eq once
    · rw [List.count_cons_of_ne taken]
      exact ih rest unreleased.2

/-! ## The keys of a machine -/

/-- The keys that are down in a machine are the fresh ones, and no others were ever taken. -/
structure Tracks (keys : Table 4 Bool) (history : List Happening) : Prop where
  fresh : ∀ k, keys[k] = true ↔ IsFresh k history
  orderly : TakenFresh history

variable {keys held : Table 4 Bool}

/-- A machine with all keys up tracks the empty history. -/
theorem tracks_nil : Tracks (.fill false) [] := by
  refine ⟨fun k => ?_, takenFresh_nil⟩
  rw [Table.getElem_fill]
  exact ⟨nofun, fun fresh => absurd fresh (not_isFresh_nil k)⟩

/-- Taking a key that is down puts it up, and it is no longer fresh. -/
theorem Tracks.take (tracks : Tracks keys history) (down : keys[k] = true) :
    Tracks (keys.set k false) (history ++ [.taken k]) := by
  refine ⟨fun j => ?_, takenFresh_snoc tracks.orderly ?_⟩
  · rw [Table.getElem_set, isFresh_snoc]
    by_cases own : j = k
    · simp [own]
    · simp [own, Ne.symm own, tracks.fresh j]
  · rintro j same
    cases same
    exact (tracks.fresh k).mp down

/-- A stroke that changes whether its key is held sets the key, and another one does not. -/
theorem Tracks.strike (tracks : Tracks keys history)
    (agrees : ∀ k, held[k] = true ↔ IsHeld k history) (k : Nibble) (down : Bool) :
    Tracks (if held[k] = down then keys else keys.set k down) (history ++ [.stroke k down]) := by
  refine ⟨fun j => ?_, takenFresh_snoc tracks.orderly nofun⟩
  rw [isFresh_snoc]
  by_cases own : j = k
  · subst own
    have record := agrees j
    by_cases same : held[j] = down
    · rw [if_pos same, tracks.fresh j]
      cases down with
      | true => simp [record.mp same]
      | false =>
        have unheld : ¬ IsHeld j history := fun isHeld => by
          rw [record.mpr isHeld] at same
          cases same
        have stale : ¬ IsFresh j history := fun fresh => unheld fresh.isHeld
        simp [stale]
    · rw [if_neg same, Table.getElem_set_self]
      cases down with
      | true => simp [mt record.mpr same]
      | false => simp
  · have kept : (if held[k] = down then keys else keys.set k down)[j] = keys[j] := by
      split
      · rfl
      · exact Table.getElem_set_ne _ _ own
    rw [kept, tracks.fresh j]
    simp [Ne.symm own]

/-- **The instructions of a frame take fresh keys.** -/
theorem Tracks.steps (s : Setup) (n : Nat) {r : Console.Running}
    (tracks : Tracks r.machine.keys history) :
    Tracks (r.steps s n).machine.keys (history ++ (r.taken s n).map .taken) := by
  induction n generalizing r history with
  | zero =>
    rw [Console.Running.taken, List.map_nil, List.append_nil]
    exact tracks
  | succ n ih =>
    -- first the next instruction, then the rest of the frame, if there is one
    have first : Tracks (r.step s).machine.keys
        (history ++ (r.machine.takes? s).toList.map .taken) := by
      obtain ⟨none, same⟩ | ⟨x, k, some, -, down, -, same⟩ := r.machine.takes_cases s
      · rw [none, Option.toList_none, List.map_nil, List.append_nil, Console.Running.step, same]
        exact tracks
      · rw [some, Option.toList_some, List.map_singleton, Console.Running.step, same]
        exact tracks.take down
    rw [Console.Running.steps, Console.Running.taken, List.map_append, ← List.append_assoc]
    by_cases ends : (r.step s).isOver s = true
    · simp only [ends, if_true, List.map_nil, List.append_nil]
      exact first
    · simp only [ends]
      exact ih first

/-- A frame tracks the keys that it takes. -/
theorem Tracks.frame (s : Setup) (pace : Pace) (accepts : Bool) {c : Console}
    (tracks : Tracks c.machine.keys history) :
    Tracks (c.frame s pace accepts).console.machine.keys
      (history ++ (c.taken s pace).map .taken) := by
  rw [Console.keys_frame]
  exact tracks.steps s pace.instructions

end Happening

end Cosmac.Keypad
