import Mathlib.Data.List.Basic

/-! Numbered blocks written one after the other, and a reader of such a stream. -/
namespace KiroProxy.Blocks

variable {α β : Type}

inductive Token (α β : Type) where
  | start (index : Nat) (head : α)
  | delta (index : Nat) (piece : β)
  | stop (index : Nat)

/-- One block: what opens it, and the pieces that follow before it is closed. -/
structure Block (α β : Type) where
  head : α
  pieces : List β

def Block.tokens (block : Block α β) (index : Nat) : List (Token α β) :=
  .start index block.head :: block.pieces.map (.delta index) ++ [.stop index]

def written (first : Nat) : List (Block α β) → List (Token α β)
  | [] => []
  | block :: rest => block.tokens first ++ written (first + 1) rest

/-- What a reader has to remember: the number of the next block and the block that is open. -/
structure Reader where
  next : Nat
  opened : Option Nat
  deriving DecidableEq

def Reader.initial : Reader := ⟨0, none⟩

def Reader.read (reader : Reader) : Token α β → Option Reader
  | .start index _ =>
    if reader.opened = none ∧ index = reader.next then some ⟨reader.next + 1, some index⟩ else none
  | .delta index _ => if reader.opened = some index then some reader else none
  | .stop index => if reader.opened = some index then some { reader with opened := none } else none

def Reader.readAll (reader : Reader) (tokens : List (Token α β)) : Option Reader := tokens.foldlM Reader.read reader

theorem readAll_pieces (next index : Nat) (pieces : List β) :
    (⟨next, some index⟩ : Reader).readAll (pieces.map (@Token.delta α β index)) = some ⟨next, some index⟩ := by
  induction pieces with
  | nil => rfl
  | cons piece rest ih => simpa [Reader.readAll, Reader.read] using ih

theorem readAll_written (first : Nat) (blocks : List (Block α β)) :
    (⟨first, none⟩ : Reader).readAll (written first blocks) = some ⟨first + blocks.length, none⟩ := by
  induction blocks generalizing first with
  | nil => rfl
  | cons block rest ih =>
    have pieces := @readAll_pieces α β (first + 1) first block.pieces
    have opened : (⟨first, none⟩ : Reader).readAll (block.tokens first) = some ⟨first + 1, none⟩ := by
      simp only [Reader.readAll] at pieces
      simp [Reader.readAll, Block.tokens, Reader.read, pieces]
    have remaining := ih (first + 1)
    simp only [Reader.readAll] at opened remaining
    simp [Reader.readAll, written, opened, remaining, Nat.add_assoc, Nat.add_comm 1]

theorem written_of_readAll {reader last : Reader} {tokens : List (Token α β)}
    (accepted : reader.readAll tokens = some last) (closed : last.opened = none) :
    match reader.opened with
    | none => ∃ blocks, tokens = written reader.next blocks
    | some index => ∃ (pieces : List β) (blocks : List (Block α β)),
      tokens = pieces.map (.delta index) ++ .stop index :: written reader.next blocks := by
  induction tokens generalizing reader with
  | nil =>
    cases accepted
    rw [closed]
    exact ⟨[], rfl⟩
  | cons token rest ih =>
    simp only [Reader.readAll, List.foldlM_cons, Option.bind_eq_bind, Option.bind_eq_some_iff] at accepted
    obtain ⟨next, taken, accepted⟩ := accepted
    have remaining := ih accepted
    cases token with
    | start index head =>
      simp only [Reader.read, Option.ite_none_right_eq_some, Option.some.injEq] at taken
      obtain ⟨⟨idle, rfl⟩, rfl⟩ := taken
      obtain ⟨pieces, blocks, rfl⟩ := remaining
      rw [idle]
      exact ⟨⟨head, pieces⟩ :: blocks, by simp [written, Block.tokens]⟩
    | delta index piece =>
      simp only [Reader.read, Option.ite_none_right_eq_some, Option.some.injEq] at taken
      obtain ⟨opened, rfl⟩ := taken
      rw [opened] at remaining ⊢
      obtain ⟨pieces, blocks, rfl⟩ := remaining
      exact ⟨piece :: pieces, blocks, rfl⟩
    | stop index =>
      simp only [Reader.read, Option.ite_none_right_eq_some, Option.some.injEq] at taken
      obtain ⟨opened, rfl⟩ := taken
      obtain ⟨blocks, rfl⟩ := remaining
      rw [opened]
      exact ⟨[], blocks, rfl⟩

theorem written_iff {tokens : List (Token α β)} :
    (∃ blocks, tokens = written 0 blocks) ↔ ∃ last, Reader.initial.readAll tokens = some last ∧ last.opened = none := by
  constructor
  · rintro ⟨blocks, rfl⟩
    exact ⟨_, readAll_written 0 blocks, rfl⟩
  · rintro ⟨last, accepted, closed⟩
    exact written_of_readAll accepted closed

end KiroProxy.Blocks
