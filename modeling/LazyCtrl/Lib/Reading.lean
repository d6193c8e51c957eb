import Mathlib.Data.List.TakeDrop

/-!
# Readers over a buffer with a mark

A buffer holds the elements that have been received, the position of the next one to be read, and a
mark.  There is only one mark: setting it again forgets the old one.  A reader is a program over a
buffer that may fail.

`Takes reader front value` says that the reader turns the elements of `front`, whatever follows
them, into the value and leaves the mark alone.  `Reads` says the same without the mark.  `Returns`
is about all values that a reader can return.  All three compose along the programs.
-/

namespace Reading

variable {ε α β γ : Type}

structure Buffer (α : Type) where
  elements : List α
  index : Nat
  mark : Nat
  index_le : index ≤ elements.length
  mark_le : mark ≤ elements.length

namespace Buffer

def ofList (elements : List α) : Buffer α := ⟨elements, 0, 0, Nat.zero_le _, Nat.zero_le _⟩

def unread (buffer : Buffer α) : List α := buffer.elements.drop buffer.index

def readable (buffer : Buffer α) : Nat := buffer.elements.length - buffer.index

def advance (buffer : Buffer α) (n : Nat) : Buffer α where
  elements := buffer.elements
  index := min (buffer.index + n) buffer.elements.length
  mark := buffer.mark
  index_le := Nat.min_le_right _ _
  mark_le := buffer.mark_le

def setMark (buffer : Buffer α) : Buffer α where
  elements := buffer.elements
  index := buffer.index
  mark := buffer.index
  index_le := buffer.index_le
  mark_le := buffer.index_le

def reset (buffer : Buffer α) : Buffer α where
  elements := buffer.elements
  index := buffer.mark
  mark := buffer.mark
  index_le := buffer.mark_le
  mark_le := buffer.mark_le

variable {buffer : Buffer α}

theorem length_unread : buffer.unread.length = buffer.readable := List.length_drop

@[simp]
theorem unread_ofList (elements : List α) : (ofList elements).unread = elements := rfl

@[simp]
theorem readable_ofList (elements : List α) : (ofList elements).readable = elements.length := rfl

@[simp]
theorem unread_setMark : buffer.setMark.unread = buffer.unread := rfl

@[simp]
theorem readable_setMark : buffer.setMark.readable = buffer.readable := rfl

@[simp]
theorem index_setMark : buffer.setMark.index = buffer.index := rfl

@[simp]
theorem reset_advance_setMark (n : Nat) : (buffer.setMark.advance n).reset = buffer.setMark := rfl

section Front

variable {front rest : List α}

theorem readable_eq (unread : buffer.unread = front ++ rest) :
    buffer.readable = front.length + rest.length := by
  rw [← length_unread, unread, List.length_append]

theorem index_advance (unread : buffer.unread = front ++ rest) :
    (buffer.advance front.length).index = buffer.index + front.length := by
  have room := readable_eq unread
  have inside := buffer.index_le
  rw [readable] at room
  simp only [advance]
  omega

theorem unread_of_index {after : Buffer α} (unread : buffer.unread = front ++ rest)
    (elements : after.elements = buffer.elements)
    (index : after.index = buffer.index + front.length) : after.unread = rest := by
  rw [Buffer.unread, elements, index, ← List.drop_drop, ← Buffer.unread, unread, List.drop_left]

theorem unread_advance (unread : buffer.unread = front ++ rest) :
    (buffer.advance front.length).unread = rest :=
  unread_of_index unread rfl (index_advance unread)

theorem advance_advance (unread : buffer.unread = front ++ rest) (n : Nat) :
    (buffer.advance front.length).advance n = buffer.advance (front.length + n) := by
  have index := index_advance unread
  simp only [advance, mk.injEq, true_and, and_true] at index ⊢
  rw [index, Nat.add_assoc]

end Front

end Buffer

abbrev Reader (ε α : Type) := EStateM ε (Buffer α)

def readable : Reader ε α Nat := fun buffer => .ok buffer.readable buffer

def index : Reader ε α Nat := fun buffer => .ok buffer.index buffer

def setMark : Reader ε α Unit := fun buffer => .ok () buffer.setMark

def reset : Reader ε α Unit := fun buffer => .ok () buffer.reset

def read (short : ε) (n : Nat) : Reader ε α (List α) := fun buffer =>
  if n ≤ buffer.readable then .ok (buffer.unread.take n) (buffer.advance n) else .error short buffer

section Steps

variable {buffer : Buffer α}

@[simp]
theorem readable_bind (next : Nat → Reader ε α β) :
    (readable >>= next) buffer = next buffer.readable buffer := rfl

@[simp]
theorem index_bind (next : Nat → Reader ε α β) :
    (index >>= next) buffer = next buffer.index buffer := rfl

@[simp]
theorem setMark_bind (next : Unit → Reader ε α β) :
    (setMark >>= next) buffer = next () buffer.setMark := rfl

@[simp]
theorem reset_bind (next : Unit → Reader ε α β) :
    (reset >>= next) buffer = next () buffer.reset := rfl

@[simp]
theorem pure_apply (value : β) : (pure value : Reader ε α β) buffer = .ok value buffer := rfl

end Steps

/-- The reader turns the elements at the front into the value and keeps the mark. -/
def Takes (reader : Reader ε α β) (front : List α) (value : β) : Prop :=
  ∀ (buffer : Buffer α) (rest : List α), buffer.unread = front ++ rest →
    reader buffer = .ok value (buffer.advance front.length)

def Reads (reader : Reader ε α β) (front : List α) (value : β) : Prop :=
  ∀ (buffer : Buffer α) (rest : List α), buffer.unread = front ++ rest →
    ∃ after, reader buffer = .ok value after ∧ after.elements = buffer.elements ∧
      after.index = buffer.index + front.length

theorem bind_eq_of_ok {reader : Reader ε α β} {next : β → Reader ε α γ}
    {buffer after : Buffer α} {value : β} (ran : reader buffer = .ok value after) :
    (reader >>= next) buffer = next value after := by
  change EStateM.bind reader next buffer = _
  rw [EStateM.bind, ran]

theorem bind_congr_of_ok {reader : Reader ε α β} {next next' : β → Reader ε α γ}
    {buffer : Buffer α}
    (same : ∀ value after, reader buffer = .ok value after → next value after = next' value after) :
    (reader >>= next) buffer = (reader >>= next') buffer := by
  change EStateM.bind reader next buffer = EStateM.bind reader next' buffer
  rw [EStateM.bind, EStateM.bind]
  split
  · exact same _ _ (by assumption)
  · rfl

theorem bind_congr_first {reader reader' : Reader ε α β} {next : β → Reader ε α γ}
    {buffer : Buffer α} (same : reader buffer = reader' buffer) :
    (reader >>= next) buffer = (reader' >>= next) buffer := by
  change EStateM.bind reader next buffer = EStateM.bind reader' next buffer
  rw [EStateM.bind, EStateM.bind, same]

theorem tryCatch_eq_of_ok {reader : Reader ε α β} {handle : ε → Reader ε α β}
    {buffer after : Buffer α} {value : β} (ran : reader buffer = .ok value after) :
    (tryCatch reader handle) buffer = .ok value after := by
  change EStateM.tryCatch reader handle buffer = _
  rw [EStateM.tryCatch, ran]

theorem Takes.reads {reader : Reader ε α β} {front : List α} {value : β}
    (takes : Takes reader front value) : Reads reader front value := fun buffer rest unread =>
  ⟨_, takes buffer rest unread, rfl, Buffer.index_advance unread⟩

section Compose

variable {reader : Reader ε α β} {next : β → Reader ε α γ} {front back : List α} {value : β}
  {result : γ}

theorem Takes.pure (value : β) : Takes (pure value : Reader ε α β) [] value :=
  fun buffer rest unread => by
    have inside := buffer.index_le
    change EStateM.Result.ok value buffer = _
    simp [Buffer.advance, Nat.min_eq_left inside]

theorem Takes.bind (takes : Takes reader front value) (continues : Takes (next value) back result) :
    Takes (reader >>= next) (front ++ back) result := fun buffer rest unread => by
  rw [List.append_assoc] at unread
  rw [bind_eq_of_ok (takes buffer _ unread), continues _ rest (Buffer.unread_advance unread),
    Buffer.advance_advance unread, List.length_append]

theorem Takes.bind_nil (takes : Takes reader [] value) (continues : Takes (next value) back result) :
    Takes (reader >>= next) back result :=
  takes.bind continues

theorem Takes.bind_end (takes : Takes reader front value) (continues : Takes (next value) [] result) :
    Takes (reader >>= next) front result := by
  rw [← List.append_nil front]
  exact takes.bind continues

theorem Takes.bind_pure (takes : Takes reader front value) (shape : β → γ) :
    Takes (reader >>= fun value => Pure.pure (shape value)) front (shape value) :=
  takes.bind_end (.pure (shape value))

theorem Reads.bind (reads : Reads reader front value) (continues : Reads (next value) back result) :
    Reads (reader >>= next) (front ++ back) result := fun buffer rest unread => by
  rw [List.append_assoc] at unread
  obtain ⟨middle, ran, elements, index⟩ := reads buffer _ unread
  obtain ⟨after, continued, elements', index'⟩ :=
    continues middle rest (Buffer.unread_of_index unread elements index)
  refine ⟨after, by rw [bind_eq_of_ok ran, continued], elements'.trans elements, ?_⟩
  rw [index', index, List.length_append, Nat.add_assoc]

theorem Takes.bind_reads (takes : Takes reader front value)
    (continues : Reads (next value) back result) : Reads (reader >>= next) (front ++ back) result :=
  takes.reads.bind continues

theorem Reads.bind_pure (reads : Reads reader front value) (shape : β → γ) :
    Reads (reader >>= fun value => Pure.pure (shape value)) front (shape value) := by
  rw [← List.append_nil front]
  exact reads.bind (Takes.pure (shape value)).reads

end Compose

theorem peek_eq {reader : Reader ε α β} {front rest : List α} {value : β}
    (takes : Takes reader front value) {buffer : Buffer α} (unread : buffer.unread = front ++ rest)
    (next : β → Reader ε α γ) :
    (setMark >>= fun _ => reader >>= fun value => reset >>= fun _ => next value) buffer =
      next value buffer.setMark := by
  rw [setMark_bind, bind_eq_of_ok (takes buffer.setMark rest unread), reset_bind,
    Buffer.reset_advance_setMark]

theorem takes_read (short : ε) (front : List α) : Takes (read short front.length) front front :=
  fun buffer rest unread => by
    have room : front.length ≤ buffer.readable := by
      rw [Buffer.readable_eq unread]
      exact Nat.le_add_right _ _
    rw [read, if_pos room, unread, List.take_left]

def Returns (reader : Reader ε α β) (holds : β → Prop) : Prop :=
  ∀ buffer value after, reader buffer = .ok value after → holds value

section Returns

variable {reader : Reader ε α β} {next : β → Reader ε α γ} {holds : β → Prop} {wanted : γ → Prop}

theorem Returns.trivial (reader : Reader ε α β) : Returns reader fun _ => True :=
  fun _ _ _ _ => True.intro

theorem Returns.pure {value : β} (given : holds value) : Returns (pure value : Reader ε α β) holds :=
  fun buffer value' after ran => by
    obtain ⟨rfl, -⟩ := EStateM.Result.ok.inj ran
    exact given

theorem exists_of_bind_eq_ok {buffer after : Buffer α} {result : γ}
    (ran : (reader >>= next) buffer = .ok result after) :
    ∃ value middle, reader buffer = .ok value middle ∧ next value middle = .ok result after := by
  change EStateM.bind reader next buffer = _ at ran
  rw [EStateM.bind] at ran
  split at ran
  · exact ⟨_, _, by assumption, ran⟩
  · cases ran

theorem Returns.bind (returns : Returns reader holds)
    (continues : ∀ value, holds value → Returns (next value) wanted) :
    Returns (reader >>= next) wanted := fun buffer result after ran => by
  obtain ⟨value, middle, ran, continued⟩ := exists_of_bind_eq_ok ran
  exact continues value (returns buffer value middle ran) middle result after continued

theorem Returns.skip (continues : ∀ value, Returns (next value) wanted) :
    Returns (reader >>= next) wanted :=
  (Returns.trivial reader).bind fun value _ => continues value

theorem Returns.ite {cond : Prop} [Decidable cond] {other : Reader ε α β}
    (positive : Returns reader holds) (negative : Returns other holds) :
    Returns (if cond then reader else other) holds := by
  split
  · exact positive
  · exact negative

theorem Returns.throw (error : ε) : Returns (throw error : Reader ε α β) holds :=
  fun _ _ _ ran => by cases ran

theorem Returns.tryCatch {handle : ε → Reader ε α β} (returns : Returns reader holds)
    (handled : ∀ error, Returns (handle error) holds) : Returns (tryCatch reader handle) holds :=
  fun buffer value after ran => by
    change EStateM.tryCatch reader handle buffer = _ at ran
    rw [EStateM.tryCatch] at ran
    split at ran
    · exact handled _ _ _ _ ran
    · exact returns _ _ _ ran

theorem returns_read (short : ε) (n : Nat) :
    Returns (read short n : Reader ε α (List α)) fun values => values.length = n :=
  fun buffer values after ran => by
    rw [read] at ran
    split at ran
    · rename_i room
      obtain ⟨rfl, -⟩ := EStateM.Result.ok.inj ran
      rw [List.length_take, Buffer.length_unread, Nat.min_eq_left room]
    · cases ran

end Returns

namespace Buffer

variable {buffer : Buffer α}

theorem unread_advance_eq (n : Nat) : (buffer.advance n).unread = buffer.unread.drop n := by
  rw [unread, unread, List.drop_drop]
  change buffer.elements.drop (min (buffer.index + n) buffer.elements.length) = _
  rcases Nat.le_total (buffer.index + n) buffer.elements.length with inside | behind
  · rw [Nat.min_eq_left inside]
  · rw [Nat.min_eq_right behind, List.drop_length, List.drop_of_length_le behind]

theorem advance_advance_eq (n m : Nat) : (buffer.advance n).advance m = buffer.advance (n + m) := by
  simp only [advance, mk.injEq, true_and, and_true]
  omega

theorem readable_advance (n : Nat) : (buffer.advance n).readable = buffer.readable - n := by
  have inside := buffer.index_le
  simp only [readable, advance]
  omega

theorem readable_add_index : buffer.readable + buffer.index = buffer.elements.length :=
  Nat.sub_add_cancel buffer.index_le

theorem index_advance_of_le {n : Nat} (room : n ≤ buffer.readable) :
    (buffer.advance n).index = buffer.index + n := by
  have inside := buffer.index_le
  rw [readable] at room
  simp only [advance]
  omega

end Buffer

/-- A reader that returns has read a number of elements, left the mark alone, and returned a value
that is related to the elements that were unread before. -/
def Yields (reader : Reader ε α β) (n : Nat) (holds : List α → β → Prop) : Prop :=
  ∀ buffer value after, reader buffer = .ok value after →
    n ≤ buffer.readable ∧ after = buffer.advance n ∧ holds buffer.unread value

def Consumes (reader : Reader ε α β) (n : Nat) : Prop := Yields reader n fun _ _ => True

def Ahead (reader : Reader ε α β) : Prop :=
  ∀ buffer value after, reader buffer = .ok value after →
    after.elements = buffer.elements ∧ buffer.index ≤ after.index

section Distance

variable {reader : Reader ε α β} {next : β → Reader ε α γ} {n m : Nat}
  {holds : List α → β → Prop} {wanted : β → List α → γ → Prop}

theorem Yields.mono {weaker : List α → β → Prop} (yields : Yields reader n holds)
    (implies : ∀ unread value, holds unread value → weaker unread value) :
    Yields reader n weaker := fun buffer value after ran =>
  have ⟨room, moved, known⟩ := yields buffer value after ran
  ⟨room, moved, implies _ _ known⟩

theorem Yields.consumes (yields : Yields reader n holds) : Consumes reader n :=
  yields.mono fun _ _ _ => trivial

theorem Yields.pure (value : β) : Yields (pure value : Reader ε α β) 0 fun _ x => x = value :=
  fun buffer value' after ran => by
    obtain ⟨rfl, rfl⟩ := EStateM.Result.ok.inj ran
    refine ⟨Nat.zero_le _, ?_, rfl⟩
    have inside := buffer.index_le
    simp [Buffer.advance, Nat.min_eq_left inside]

theorem Yields.throw (error : ε) : Yields (throw error : Reader ε α β) n holds :=
  fun _ _ _ ran => by cases ran

theorem Yields.bind (first : Yields reader n holds) (second : ∀ x, Yields (next x) m (wanted x)) :
    Yields (reader >>= next) (n + m)
      fun unread value => ∃ x, holds unread x ∧ wanted x (unread.drop n) value :=
  fun buffer value after ran => by
    obtain ⟨x, middle, ran, continued⟩ := exists_of_bind_eq_ok ran
    obtain ⟨room, rfl, known⟩ := first buffer x middle ran
    obtain ⟨more, rfl, result⟩ := second x _ value after continued
    rw [Buffer.readable_advance] at more
    rw [Buffer.unread_advance_eq] at result
    exact ⟨by omega, Buffer.advance_advance_eq n m, x, known, result⟩

theorem Consumes.pure (value : β) : Consumes (pure value : Reader ε α β) 0 :=
  (Yields.pure value).consumes

theorem Consumes.bind (first : Consumes reader n) (second : ∀ x, Consumes (next x) m) :
    Consumes (reader >>= next) (n + m) :=
  (Yields.bind first second).consumes

theorem Consumes.bind_pure (first : Consumes reader n) (shape : β → γ) :
    Consumes (reader >>= fun value => Pure.pure (shape value)) n :=
  first.bind fun value => .pure (shape value)

theorem yields_read (short : ε) (n : Nat) :
    Yields (read short n : Reader ε α (List α)) n fun unread values => values = unread.take n :=
  fun buffer values after ran => by
    rw [read] at ran
    split at ran
    · rename_i room
      obtain ⟨rfl, rfl⟩ := EStateM.Result.ok.inj ran
      exact ⟨room, rfl, rfl⟩
    · cases ran

theorem Yields.index_eq (yields : Yields reader n holds) {buffer after : Buffer α} {value : β}
    (ran : reader buffer = .ok value after) : after.index = buffer.index + n := by
  obtain ⟨room, rfl, -⟩ := yields buffer value after ran
  exact Buffer.index_advance_of_le room

theorem Yields.peel (yields : Yields reader n holds) {buffer after : Buffer α} {result : γ}
    (ran : (reader >>= next) buffer = .ok result after) :
    ∃ value, n ≤ buffer.readable ∧ holds buffer.unread value ∧
      next value (buffer.advance n) = .ok result after := by
  obtain ⟨value, middle, first, rest⟩ := exists_of_bind_eq_ok ran
  obtain ⟨room, rfl, known⟩ := yields buffer value middle first
  exact ⟨value, room, known, rest⟩

theorem Yields.ahead (yields : Yields reader n holds) : Ahead reader :=
  fun buffer value after ran => by
    obtain ⟨room, rfl, -⟩ := yields buffer value after ran
    refine ⟨rfl, ?_⟩
    rw [Buffer.index_advance_of_le room]
    exact Nat.le_add_right _ _

theorem Ahead.bind (first : Ahead reader) (second : ∀ x, Ahead (next x)) :
    Ahead (reader >>= next) := fun buffer value after ran => by
  obtain ⟨x, middle, ran, continued⟩ := exists_of_bind_eq_ok ran
  obtain ⟨elements, index⟩ := first buffer x middle ran
  obtain ⟨elements', index'⟩ := second x middle value after continued
  exact ⟨elements'.trans elements, Nat.le_trans index index'⟩

theorem Ahead.pure (value : β) : Ahead (pure value : Reader ε α β) := (Yields.pure value).ahead

theorem Ahead.throw (error : ε) : Ahead (throw error : Reader ε α β) :=
  fun _ _ _ ran => by cases ran

end Distance

end Reading
