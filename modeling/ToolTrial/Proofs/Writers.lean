import ToolTrial.Proofs.Bench

/-!
Two writers of one path.  Both write beside the place under the same name, so all hangs on whether
one call opens its file before the other has moved its own.  If not, the calls stay apart and each
text is in place as a whole.  If so, they meet in one file, and the call that comes second finds
nothing to move.
-/

set_option autoImplicit false
set_option relaxedAutoImplicit false

namespace ToolTrial

namespace Progress

/-- The progress of a call after so many steps, of which the first `n` are its lead-in. -/
def After (n steps : Nat) : Progress → Prop
  | .ready left => steps + left = n
  | .opened _ => steps = n + 1
  | .filled => steps = n + 2
  | .returned _ => n + 3 ≤ steps

/-- A call that shares its file with whoever opens one now. -/
def UnderWay (p : Progress) : Prop :=
  p = .opened 0 ∨ p = .filled

variable {n steps : Nat} {p : Progress}

theorem After.of_underWay (h : p.After n steps) (here : p.UnderWay) :
    n < steps ∧ steps < n + 3 := by
  rcases here with rfl | rfl
  · obtain rfl : steps = n + 1 := h
    omega
  · obtain rfl : steps = n + 2 := h
    omega

theorem After.returned (h : p.After n steps) (enough : n + 3 ≤ steps) :
    ∃ result, p = .returned result := by
  cases p with
  | ready left =>
    have count : steps + left = n := h
    omega
  | opened k =>
    have count : steps = n + 1 := h
    omega
  | filled =>
    have count : steps = n + 2 := h
    omega
  | returned result => exact ⟨result, rfl⟩

theorem After.advance {beside target : Location} {path : Path} {text : String}
    (h : p.After n steps) (b : Bench) :
    (b.advance beside target path text p).2.After n (steps + 1) := by
  cases p with
  | ready left =>
    have count : steps + left = n := h
    cases left with
    | zero => exact congrArg (· + 1) count
    | succ left =>
      show steps + 1 + left = n
      omega
  | opened k => exact congrArg (· + 1) h
  | filled =>
    have count : steps = n + 2 := h
    have many : n + 3 ≤ steps + 1 := by omega
    cases there : b.beside with
    | none =>
      rw [Bench.advance_of_gone there]
      exact many
    | some entry =>
      rw [Bench.advance_of_there there]
      exact many
  | returned result => exact Nat.le_succ_of_le h

end Progress

section Situations

variable (beside target : Location) (start : Bench)

/-- Two calls of which the second one opens no file before the first one has returned. -/
inductive Apart (text later : String) : Bench → Progress → Progress → Prop
  | ready (left left' : Nat) : Apart text later start (.ready left) (.ready left')
  | opened (left : Nat) : Apart text later
      ⟨[⟨some beside, .empty⟩], some (.file (.text "")), start.inPlace⟩ (.opened 0) (.ready left)
  | filled (left : Nat) : Apart text later
      ⟨[⟨some beside, text.toUTF8⟩], some (.file (.text text)), start.inPlace⟩ .filled (.ready left)
  | returned (left : Nat) : Apart text later
      ⟨[⟨some target, text.toUTF8⟩], none, some (.file (.text text))⟩ (.returned (.ok ()))
      (.ready left)
  | laterOpened : Apart text later
      ⟨[⟨some target, text.toUTF8⟩, ⟨some beside, .empty⟩], some (.file (.text "")),
        some (.file (.text text))⟩ (.returned (.ok ())) (.opened 1)
  | laterFilled : Apart text later
      ⟨[⟨some target, text.toUTF8⟩, ⟨some beside, later.toUTF8⟩], some (.file (.text later)),
        some (.file (.text text))⟩ (.returned (.ok ())) .filled
  | laterReturned : Apart text later
      ⟨[⟨none, text.toUTF8⟩, ⟨some target, later.toUTF8⟩], none, some (.file (.text later))⟩
      (.returned (.ok ())) (.returned (.ok ()))

/-- Two calls with one file, which is beside the place until one of them moves it. -/
inductive Met (path : Path) (blend : ByteArray → Prop) : Bench → Progress → Progress → Prop
  | beside {bytes : ByteArray} (blended : blend bytes) {p q : Progress} (here : p.UnderWay)
      (there : q.UnderWay) :
      Met path blend ⟨[⟨some beside, bytes⟩], some (.file (.ofBytes bytes)), start.inPlace⟩ p q
  | moved {bytes : ByteArray} (blended : blend bytes) {q : Progress}
      (there : q.UnderWay ∨ q = .returned (.error ⟨[.replacing path], .disk .notFound⟩)) :
      Met path blend ⟨[⟨some target, bytes⟩], none, some (.file (.ofBytes bytes))⟩
        (.returned (.ok ())) q

end Situations

section Steps

variable {beside target : Location} {start b : Bench} {path : Path} {p q : Progress}
  {text later : String} {blend : ByteArray → Prop}

private theorem openFile_of_nothing (nothing : start.opened = []) : start.openFile beside =
    (0, ⟨[⟨some beside, .empty⟩], some (.file (.text "")), start.inPlace⟩) := by
  simp [Bench.openFile, OpenFile.openAt, nothing]

private theorem openFile_of_beside (bytes : ByteArray) (e i : Option Entry) :
    (⟨[⟨some beside, bytes⟩], e, i⟩ : Bench).openFile beside =
      (0, ⟨[⟨some beside, .empty⟩], some (.file (.text "")), i⟩) := by
  simp [Bench.openFile, OpenFile.openAt, List.findIdx?_cons]

private theorem openFile_of_target (apart : beside ≠ target) (bytes : ByteArray)
    (e i : Option Entry) : (⟨[⟨some target, bytes⟩], e, i⟩ : Bench).openFile beside =
      (1, ⟨[⟨some target, bytes⟩, ⟨some beside, .empty⟩], some (.file (.text "")), i⟩) := by
  simp [Bench.openFile, OpenFile.openAt, List.findIdx?_cons, apart.symm]

private theorem fill_of_beside (apart : beside ≠ target) (more bytes : ByteArray)
    (e i : Option Entry) : (⟨[⟨some beside, bytes⟩], e, i⟩ : Bench).fill beside target 0 more =
      ⟨[⟨some beside, OpenFile.overwrite more bytes⟩],
        some (.file (.ofBytes (OpenFile.overwrite more bytes))), i⟩ := by
  simp [Bench.fill, apart]

private theorem fill_of_target (apart : beside ≠ target) (more bytes : ByteArray)
    (e i : Option Entry) : (⟨[⟨some target, bytes⟩], e, i⟩ : Bench).fill beside target 0 more =
      ⟨[⟨some target, OpenFile.overwrite more bytes⟩], e,
        some (.file (.ofBytes (OpenFile.overwrite more bytes)))⟩ := by
  simp [Bench.fill, apart.symm]

private theorem fill_of_second (apart : beside ≠ target) (more bytes : ByteArray)
    (e i : Option Entry) :
    (⟨[⟨some target, bytes⟩, ⟨some beside, .empty⟩], e, i⟩ : Bench).fill beside target 1 more =
      ⟨[⟨some target, bytes⟩, ⟨some beside, more⟩], some (.file (.ofBytes more)), i⟩ := by
  simp [Bench.fill, apart]

private theorem moved_beside (bytes : ByteArray) :
    OpenFile.moved beside target ⟨some beside, bytes⟩ = ⟨some target, bytes⟩ := by
  simp [OpenFile.moved]

private theorem moved_target (apart : beside ≠ target) (bytes : ByteArray) :
    OpenFile.moved beside target ⟨some target, bytes⟩ = ⟨none, bytes⟩ := by
  simp [OpenFile.moved, apart.symm]

theorem Apart.advance_first (path : Path) (nothing : start.opened = []) (apart : beside ≠ target)
    (h : Apart beside target start text later b p q) :
    Apart beside target start text later (b.advance beside target path text p).1
      (b.advance beside target path text p).2 q := by
  cases h with
  | ready left left' =>
    cases left with
    | zero =>
      rw [Bench.advance_ready, openFile_of_nothing nothing]
      exact .opened left'
    | succ left => exact .ready left left'
  | opened left =>
    rw [Bench.advance_opened, fill_of_beside apart, OpenFile.overwrite_empty,
      Content.ofBytes_toUTF8]
    exact .filled left
  | filled left =>
    rw [Bench.advance_of_there rfl, List.map_singleton, moved_beside]
    exact .returned left
  | returned left => exact .returned left
  | laterOpened => exact .laterOpened
  | laterFilled => exact .laterFilled
  | laterReturned => exact .laterReturned

/-- When the second call takes a step, the two calls stay apart, in one order or the other, or else
they meet in one file. -/
theorem Apart.advance_second (path : Path) (nothing : start.opened = []) (apart : beside ≠ target)
    (empty : blend .empty) (h : Apart beside target start text later b p q) :
    Apart beside target start text later (b.advance beside target path later q).1 p
        (b.advance beside target path later q).2 ∨
      Apart beside target start later text (b.advance beside target path later q).1
        (b.advance beside target path later q).2 p ∨
      (p.UnderWay ∧ (b.advance beside target path later q).2.UnderWay ∧
        Met beside target start path blend (b.advance beside target path later q).1 p
          (b.advance beside target path later q).2) := by
  have blank : (.text "" : Content) = .ofBytes .empty := (Content.ofBytes_toUTF8 "").symm
  cases h with
  | ready left left' =>
    cases left' with
    | zero =>
      rw [Bench.advance_ready, openFile_of_nothing nothing]
      exact Or.inr (Or.inl (.opened left))
    | succ left' => exact Or.inl (.ready left left')
  | opened left =>
    cases left with
    | zero =>
      rw [Bench.advance_ready, openFile_of_beside, blank]
      exact Or.inr (Or.inr ⟨Or.inl rfl, Or.inl rfl, .beside empty (Or.inl rfl) (Or.inl rfl)⟩)
    | succ left => exact Or.inl (.opened left)
  | filled left =>
    cases left with
    | zero =>
      rw [Bench.advance_ready, openFile_of_beside, blank]
      exact Or.inr (Or.inr ⟨Or.inr rfl, Or.inl rfl, .beside empty (Or.inr rfl) (Or.inl rfl)⟩)
    | succ left => exact Or.inl (.filled left)
  | returned left =>
    cases left with
    | zero =>
      rw [Bench.advance_ready, openFile_of_target apart]
      exact Or.inl .laterOpened
    | succ left => exact Or.inl (.returned left)
  | laterOpened =>
    rw [Bench.advance_opened, fill_of_second apart, Content.ofBytes_toUTF8]
    exact Or.inl .laterFilled
  | laterFilled =>
    rw [Bench.advance_of_there rfl, List.map_cons, List.map_singleton, moved_beside,
      moved_target apart]
    exact Or.inl .laterReturned
  | laterReturned => exact Or.inl .laterReturned

theorem Apart.not_both {n k l : Nat} (h : Apart beside target start text later b p q)
    (after : p.After n k) (after' : q.After n l) :
    ¬ ((n < k ∧ k < n + 3) ∧ n < l ∧ l < n + 3) := by
  rintro ⟨⟨opened, unmoved⟩, opened', unmoved'⟩
  cases h with
  | ready left left' =>
    have count : k + left = n := after
    omega
  | opened left | filled left | returned left =>
    have count : l + left = n := after'
    omega
  | laterOpened | laterFilled | laterReturned =>
    have many : n + 3 ≤ k := after
    omega

theorem Apart.inPlace (h : Apart beside target start text later b p q) :
    b.inPlace = start.inPlace ∨ b.inPlace = some (.file (.text text)) ∨
      b.inPlace = some (.file (.text later)) := by
  cases h with
  | ready | opened | filled => exact Or.inl rfl
  | returned | laterOpened | laterFilled => exact Or.inr (Or.inl rfl)
  | laterReturned => exact Or.inr (Or.inr rfl)

theorem Apart.of_returned {result result' : Except Failure Unit}
    (h : Apart beside target start text later b (.returned result) (.returned result')) :
    result = .ok () ∧ result' = .ok () ∧ b.inPlace = some (.file (.text later)) := by
  cases h with
  | laterReturned => exact ⟨rfl, rfl, rfl⟩

theorem Met.inPlace (h : Met beside target start path blend b p q) :
    b.inPlace = start.inPlace ∨
      ∃ bytes, blend bytes ∧ b.inPlace = some (.file (.ofBytes bytes)) := by
  cases h with
  | beside => exact Or.inl rfl
  | moved blended => exact Or.inr ⟨_, blended, rfl⟩

theorem Met.of_returned {result result' : Except Failure Unit}
    (h : Met beside target start path blend b (.returned result) (.returned result')) :
    result = .ok () ∧ result' = .error ⟨[.replacing path], .disk .notFound⟩ ∧
      ∃ bytes, blend bytes ∧ b.inPlace = some (.file (.ofBytes bytes)) := by
  cases h with
  | beside blended here there => rcases here with h | h <;> cases h
  | moved blended there =>
    rcases there with (there | there) | there
    · cases there
    · cases there
    · exact ⟨rfl, Progress.returned.inj there, _, blended, rfl⟩

private theorem advance_of_underWay (apart : beside ≠ target)
    (closed : ∀ bytes, blend bytes → blend (OpenFile.overwrite text.toUTF8 bytes))
    {bytes : ByteArray} (blended : blend bytes) (here : p.UnderWay) (there : q.UnderWay) :
    let b : Bench := ⟨[⟨some beside, bytes⟩], some (.file (.ofBytes bytes)), start.inPlace⟩
    Met beside target start path blend (b.advance beside target path text p).1
      (b.advance beside target path text p).2 q := by
  rcases here with rfl | rfl
  · show Met beside target start path blend (Bench.advance _ _ _ _ _ _).1 _ _
    rw [Bench.advance_opened, fill_of_beside apart]
    exact .beside (closed bytes blended) (Or.inr rfl) there
  · dsimp only
    rw [Bench.advance_of_there rfl, List.map_singleton, moved_beside]
    exact .moved blended (Or.inl there)

theorem Met.advance_first (apart : beside ≠ target)
    (closed : ∀ bytes, blend bytes → blend (OpenFile.overwrite text.toUTF8 bytes))
    (h : Met beside target start path blend b p q) :
    Met beside target start path blend (b.advance beside target path text p).1
      (b.advance beside target path text p).2 q := by
  cases h with
  | beside blended here there => exact advance_of_underWay apart closed blended here there
  | moved blended there => exact .moved blended there

theorem Met.advance_second (apart : beside ≠ target)
    (closed : ∀ bytes, blend bytes → blend (OpenFile.overwrite later.toUTF8 bytes))
    (h : Met beside target start path blend b p q) :
    Met beside target start path blend (b.advance beside target path later q).1 p
        (b.advance beside target path later q).2 ∨
      Met beside target start path blend (b.advance beside target path later q).1
        (b.advance beside target path later q).2 p := by
  cases h with
  | beside blended here there =>
    exact Or.inr (advance_of_underWay apart closed blended there here)
  | moved blended there =>
    rcases there with (rfl | rfl) | rfl
    · -- The other call has moved their file, so that this one fills it where it is seen.
      rw [Bench.advance_opened, fill_of_target apart]
      exact Or.inl (.moved (closed _ blended) (Or.inl (Or.inr rfl)))
    · rw [Bench.advance_of_gone rfl]
      exact Or.inl (.moved blended (Or.inr rfl))
    · exact Or.inl (.moved blended (Or.inr rfl))

end Steps

end ToolTrial
