import KiroProxy.Json
import KiroProxy.Lib.Bytes
import KiroProxy.Lib.Maps
import Mathlib.Data.List.Sort
import Mathlib.Data.String.Basic

/-! Tool names on the way to Kiro, whose names are short and plain. A request registers its
whole catalogue, so that two names with one plain form still go out under different names. -/
namespace KiroProxy

/-- `Sha256::digest`; nothing but the width of a digest is built in. -/
abbrev Sha256 := List UInt8 → Vector UInt8 32

def maxKiroToolName : Nat := 64

def isToolNameChar (c : Char) : Bool := c.isAlphanum || c == '_' || c == '-'

def normalizedChars (name : String) : List Char :=
  name.toList.map fun c => if isToolNameChar c then c else '_'

def hexByte (b : UInt8) : List Char := [Value.hexDigit (b.toNat / 16), Value.hexDigit (b.toNat % 16)]

def digestSuffix (sha : Sha256) (text : String) (count : Nat) : List Char :=
  ((sha (Bytes.utf8 text)).toList.take count).flatMap hexByte

def withSuffix (normalized suffix : List Char) : String :=
  let kept := normalized.take (maxKiroToolName - suffix.length - 1)
  let front := if kept.isEmpty then "tool".toList else kept
  String.ofList (front ++ '_' :: suffix)

def toolName (sha : Sha256) (name : String) : String :=
  let normalized := normalizedChars name
  if normalized.length ≤ maxKiroToolName && !normalized.isEmpty then String.ofList normalized
  else withSuffix normalized (digestSuffix sha name 6)

def nonceText (name : String) (nonce : Nat) : String := name ++ "\x00" ++ toString nonce

def collisionToolName (sha : Sha256) (name : String) (nonce : Nat) : String :=
  withSuffix (normalizedChars name) (digestSuffix sha (nonceText name nonce) 8)

structure ToolNameRegistry where
  originalToKiro : Finmap (fun _ : String => String) := ∅
  kiroToOriginal : Finmap (fun _ : String => String) := ∅

namespace ToolNameRegistry

def contains (map : Finmap (fun _ : String => String)) (key : String) : Bool := (map.lookup key).isSome

/-- The search for a free name. The nonce stops at `u32::MAX`, where a search that found
nothing repeats its last candidate for ever: it has no result. -/
def freeName (taken : String → Bool) (candidate : Nat → String) : Nat → Nat → Option String
  | 0, _ => none
  | left + 1, nonce =>
    if taken (candidate nonce) then freeName taken candidate left (nonce + 1) else some (candidate nonce)

def nonces : Nat := 2 ^ 32

def register (sha : Sha256) (originals : List String) (registry : ToolNameRegistry) (original : String) :
    Option ToolNameRegistry :=
  let base := toolName sha original
  let needsHash := decide (1 < originals.countP fun other => toolName sha other == base)
    || contains registry.kiroToOriginal base
  let candidate := fun nonce =>
    if needsHash || decide (0 < nonce) then collisionToolName sha original nonce else base
  (freeName (contains registry.kiroToOriginal) candidate nonces 0).map fun kiro =>
    { originalToKiro := registry.originalToKiro.insert original kiro
      kiroToOriginal := registry.kiroToOriginal.insert kiro original }

def originals (names : List String) : List String :=
  ((names.filter (· ≠ "")).dedup).insertionSort (· ≤ ·)

def new (sha : Sha256) (names : List String) : Option ToolNameRegistry :=
  (originals names).foldlM (register sha (originals names)) {}

def kiroName (sha : Sha256) (registry : ToolNameRegistry) (original : String) : String :=
  (registry.originalToKiro.lookup original).getD (toolName sha original)

def containsOriginal (registry : ToolNameRegistry) (original : String) : Bool :=
  contains registry.originalToKiro original

def restoreMap (registry : ToolNameRegistry) : Finmap (fun _ : String => String) := registry.kiroToOriginal

end ToolNameRegistry

structure Plain (name : String) : Prop where
  nonempty : name ≠ ""
  short : name.utf8ByteSize ≤ maxKiroToolName
  chars : ∀ c ∈ name.toList, isToolNameChar c = true

theorem utf8Size_of_plain {c : Char} (plain : isToolNameChar c = true) : c.utf8Size = 1 := by
  rw [Char.utf8Size_eq_one_iff]
  simp only [isToolNameChar, Bool.or_eq_true, beq_iff_eq] at plain
  rcases plain with ((alnum | rfl) | rfl)
  · have bounds := Text.isAlphanum_bounds alnum
    rw [UInt32.le_iff_toNat_le]
    show c.toNat ≤ 127
    omega
  · decide
  · decide

theorem utf8ByteSize_of_plain (cs : List Char) (plain : ∀ c ∈ cs, isToolNameChar c = true) :
    (String.ofList cs).utf8ByteSize = cs.length := by
  induction cs with
  | nil => rfl
  | cons c cs ih =>
    have front := utf8Size_of_plain (plain c List.mem_cons_self)
    have back := ih fun d member => plain d (List.mem_cons_of_mem c member)
    rw [String.ofList_cons, String.utf8ByteSize_append, back, String.utf8ByteSize_singleton, front, List.length_cons]
    omega

theorem Plain.of_chars {cs : List Char} (filled : cs ≠ []) (short : cs.length ≤ maxKiroToolName)
    (plain : ∀ c ∈ cs, isToolNameChar c = true) : Plain (String.ofList cs) where
  nonempty := by simpa [← String.toList_inj] using filled
  short := by rw [utf8ByteSize_of_plain cs plain]; exact short
  chars := by simpa using plain

theorem normalizedChars_plain (name : String) : ∀ c ∈ normalizedChars name, isToolNameChar c = true := by
  intro c member
  obtain ⟨d, -, rfl⟩ := List.mem_map.1 member
  split
  · assumption
  · decide

variable {n : Nat} {name : String}

theorem hexDigit_plain (small : n < 16) : isToolNameChar (Value.hexDigit n) = true := by
  have all : ∀ k : Fin 16, isToolNameChar (Value.hexDigit k) = true := by decide
  exact all ⟨n, small⟩

theorem hexDigit_inj {m : Nat} (n_small : n < 16) (m_small : m < 16) (same : Value.hexDigit n = Value.hexDigit m) :
    n = m := by
  have all : ∀ k j : Fin 16, Value.hexDigit k = Value.hexDigit j → k = j := by decide
  exact congrArg Fin.val (all ⟨n, n_small⟩ ⟨m, m_small⟩ same)

theorem hexByte_inj {a b : UInt8} (same : hexByte a = hexByte b) : a = b := by
  have below_a := a.toNat_lt
  have below_b := b.toNat_lt
  simp only [hexByte, List.cons.injEq, and_true] at same
  have high := hexDigit_inj (by omega) (by omega) same.1
  have low := hexDigit_inj (by omega) (by omega) same.2
  exact UInt8.toNat_inj.1 (by omega)

theorem hexBytes_inj {xs ys : List UInt8} (same : xs.flatMap hexByte = ys.flatMap hexByte) : xs = ys := by
  induction xs generalizing ys with
  | nil =>
    cases ys with
    | nil => rfl
    | cons y ys => simp [hexByte] at same
  | cons x xs ih =>
    cases ys with
    | nil => simp [hexByte] at same
    | cons y ys =>
      rw [List.flatMap_cons, List.flatMap_cons] at same
      obtain ⟨head, tail⟩ := List.append_inj same rfl
      rw [hexByte_inj head, ih tail]

theorem digestSuffix_plain (sha : Sha256) (text : String) (count : Nat) :
    ∀ c ∈ digestSuffix sha text count, isToolNameChar c = true := by
  intro c member
  obtain ⟨b, -, inside⟩ := List.mem_flatMap.1 member
  have below := b.toNat_lt
  simp only [hexByte, List.mem_cons, List.not_mem_nil, or_false] at inside
  obtain rfl | rfl := inside
  · exact hexDigit_plain (by omega)
  · exact hexDigit_plain (by omega)

theorem length_digestSuffix (sha : Sha256) (text : String) {count : Nat} (inside : count ≤ 32) :
    (digestSuffix sha text count).length = 2 * count := by
  have two : ∀ xs : List UInt8, (xs.flatMap hexByte).length = 2 * xs.length := by
    intro xs
    induction xs with
    | nil => rfl
    | cons x xs ih => simp only [List.flatMap_cons, List.length_append, ih, hexByte, List.length_cons,
        List.length_nil]; omega
  rw [digestSuffix, two, List.length_take, Vector.length_toList, Nat.min_eq_left inside]

theorem withSuffix_plain {normalized suffix : List Char} (fits : suffix.length + 5 ≤ maxKiroToolName)
    (plain : ∀ c ∈ normalized, isToolNameChar c = true) (digits : ∀ c ∈ suffix, isToolNameChar c = true) :
    Plain (withSuffix normalized suffix) := by
  have front : ∀ front : List Char, front.length ≤ maxKiroToolName - suffix.length - 1 →
      (∀ c ∈ front, isToolNameChar c = true) → Plain (String.ofList (front ++ '_' :: suffix)) := by
    intro front short chars
    apply Plain.of_chars
    · simp
    · simp only [List.length_append, List.length_cons]
      omega
    · intro c member
      rw [List.mem_append, List.mem_cons] at member
      obtain inside | rfl | inside := member
      · exact chars c inside
      · decide
      · exact digits c inside
  unfold withSuffix
  dsimp only
  split
  · refine front _ ?_ (by decide)
    have four : "tool".toList.length = 4 := by decide
    omega
  · refine front _ (List.length_take_le _ _) fun c member => plain c (List.mem_of_mem_take member)

theorem toolName_plain (sha : Sha256) (name : String) : Plain (toolName sha name) := by
  unfold toolName
  dsimp only
  split
  case isTrue fits =>
    rw [Bool.and_eq_true, decide_eq_true_eq, Bool.not_eq_true', List.isEmpty_eq_false_iff] at fits
    exact Plain.of_chars fits.2 fits.1 (normalizedChars_plain name)
  case isFalse =>
    refine withSuffix_plain ?_ (normalizedChars_plain name) (digestSuffix_plain sha name 6)
    rw [length_digestSuffix sha name (by decide)]
    decide

theorem length_collisionSuffix (sha : Sha256) (name : String) (nonce : Nat) :
    (digestSuffix sha (nonceText name nonce) 8).length = 16 := length_digestSuffix sha _ (by decide)

theorem collisionToolName_plain (sha : Sha256) (name : String) (nonce : Nat) :
    Plain (collisionToolName sha name nonce) := by
  refine withSuffix_plain ?_ (normalizedChars_plain name) (digestSuffix_plain sha _ 8)
  rw [length_collisionSuffix]
  decide

theorem collisionToolName_inj {sha : Sha256} {m : Nat}
    (same : collisionToolName sha name n = collisionToolName sha name m) :
    (sha (Bytes.utf8 (nonceText name n))).toList.take 8 = (sha (Bytes.utf8 (nonceText name m))).toList.take 8 := by
  simp only [collisionToolName, withSuffix, length_collisionSuffix, String.ofList_inj] at same
  have suffix := (List.append_inj same rfl).2
  exact hexBytes_inj (List.cons.inj suffix).2

namespace ToolNameRegistry

def EnoughDigests (sha : Sha256) (names : List String) : Prop :=
  ∀ name ∈ names, ∃ tried : Finset Nat, names.length ≤ tried.card ∧ (∀ n ∈ tried, n < nonces) ∧
    Set.InjOn (fun n => (sha (Bytes.utf8 (nonceText name n))).toList.take 8) tried

theorem freeName_free {taken : String → Bool} {candidate : Nat → String} {left nonce : Nat} {found : String}
    (search : freeName taken candidate left nonce = some found) :
    taken found = false ∧ ∃ n, nonce ≤ n ∧ found = candidate n := by
  induction left generalizing nonce with
  | zero => cases search
  | succ left ih =>
    unfold freeName at search
    split at search
    case isTrue =>
      obtain ⟨free, n, later, same⟩ := ih search
      exact ⟨free, n, by omega, same⟩
    case isFalse free =>
      obtain rfl := Option.some.inj search
      exact ⟨by simpa using free, nonce, le_rfl, rfl⟩

theorem freeName_ends {taken : String → Bool} {candidate : Nat → String} {left nonce : Nat} (later : nonce ≤ n)
    (inside : n < nonce + left) (free : taken (candidate n) = false) :
    ∃ found, freeName taken candidate left nonce = some found := by
  induction left generalizing nonce with
  | zero => omega
  | succ left ih =>
    unfold freeName
    split
    case isTrue used =>
      have other : nonce ≠ n := by
        rintro rfl
        rw [free] at used
        cases used
      exact ih (by omega) (by omega)
    case isFalse => exact ⟨_, rfl⟩

theorem contains_eq_false {map : Finmap (fun _ : String => String)} {key : String} :
    contains map key = false ↔ map.lookup key = none := by
  rw [contains, Option.isSome_eq_false_iff, Option.isNone_iff_eq_none]

/-- The two maps are each other's inverse over the registered names, and every name sent
is plain: the name's own form if no other name of the catalogue has it, else a hashed one. -/
structure Registered (sha : Sha256) (all done : List String) (registry : ToolNameRegistry) : Prop where
  known : ∀ n, n ∈ done ↔ ∃ k, registry.originalToKiro.lookup n = some k
  inverse : ∀ n k, registry.originalToKiro.lookup n = some k ↔ registry.kiroToOriginal.lookup k = some n
  sent : ∀ n k, registry.originalToKiro.lookup n = some k →
    (k = toolName sha n ∧ all.countP (fun other => toolName sha other == k) ≤ 1) ∨
      ∃ nonce, k = collisionToolName sha n nonce
  small : Maps.size registry.kiroToOriginal ≤ done.length

theorem Registered.empty (sha : Sha256) (all : List String) : Registered sha all [] {} where
  known := by simp
  inverse := by simp
  sent := by simp
  small := by simp

theorem register_ends {sha : Sha256} {all done : List String} {registry : ToolNameRegistry} {original : String}
    (right : Registered sha all done registry)
    (enough : ∃ tried : Finset Nat, done.length < tried.card ∧ (∀ n ∈ tried, n < nonces) ∧
      Set.InjOn (fun n => (sha (Bytes.utf8 (nonceText original n))).toList.take 8) tried) :
    ∃ after, register sha all registry original = some after := by
  obtain ⟨tried, many, bounded, apart⟩ := enough
  -- More nonces give different names than names are taken, so one of them is free.
  have names_apart : Set.InjOn (collisionToolName sha original) tried :=
    fun n n_tried m m_tried same => apart n_tried m_tried (collisionToolName_inj same)
  have more : registry.kiroToOriginal.keys.card < (tried.image (collisionToolName sha original)).card := by
    rw [Finset.card_image_of_injOn names_apart]
    exact lt_of_le_of_lt right.small many
  obtain ⟨free, candidate, absent⟩ := Finset.exists_mem_notMem_of_card_lt_card more
  obtain ⟨n, n_tried, rfl⟩ := Finset.mem_image.1 candidate
  have unused : contains registry.kiroToOriginal (collisionToolName sha original n) = false := by
    rw [contains_eq_false, Finmap.lookup_eq_none]
    exact fun inside => absent (Finmap.mem_keys.2 inside)
  unfold register
  dsimp only
  rw [← Option.isSome_iff_exists, Option.isSome_map, Option.isSome_iff_exists]
  by_cases hashed : (decide (1 < all.countP fun other => toolName sha other == toolName sha original)
      || contains registry.kiroToOriginal (toolName sha original)) = true
  · refine freeName_ends (n := n) (Nat.zero_le n) (by simpa using bounded n n_tried) ?_
    simpa [hashed] using unused
  · have base : contains registry.kiroToOriginal (toolName sha original) = false := by
      rw [Bool.or_eq_true, not_or, Bool.not_eq_true] at hashed
      simpa using hashed.2
    refine freeName_ends (n := 0) le_rfl (by decide) ?_
    simp only [Bool.not_eq_true] at hashed
    simpa [hashed] using base

theorem register_keeps {sha : Sha256} {all done : List String} {registry after : ToolNameRegistry}
    {original : String} (right : Registered sha all done registry) (fresh : original ∉ done)
    (registered : register sha all registry original = some after) :
    Registered sha all (original :: done) after := by
  unfold register at registered
  dsimp only at registered
  obtain ⟨kiro, search, rfl⟩ := Option.map_eq_some_iff.1 registered
  obtain ⟨free, nonce, -, named⟩ := freeName_free search
  have unused := contains_eq_false.1 free
  have unknown : ∀ k, registry.originalToKiro.lookup original ≠ some k :=
    fun k there => fresh ((right.known original).2 ⟨k, there⟩)
  constructor
  case known =>
    intro n
    by_cases same : n = original
    · subst same
      simp [Finmap.lookup_insert]
    · rw [Finmap.lookup_insert_of_ne _ same, ← right.known n, List.mem_cons]
      simp [same]
  case inverse =>
    intro n k
    by_cases same : n = original
    · subst same
      by_cases at_k : k = kiro
      · subst at_k
        simp [Finmap.lookup_insert]
      · rw [Finmap.lookup_insert, Finmap.lookup_insert_of_ne _ at_k, ← right.inverse n k]
        simp only [Option.some.injEq, unknown k, iff_false]
        exact fun equal => at_k equal.symm
    · by_cases at_k : k = kiro
      · subst at_k
        rw [Finmap.lookup_insert_of_ne _ same, Finmap.lookup_insert, right.inverse n k, unused]
        simp only [reduceCtorEq, Option.some.injEq, false_iff]
        exact fun equal => same equal.symm
      · rw [Finmap.lookup_insert_of_ne _ same, Finmap.lookup_insert_of_ne _ at_k]
        exact right.inverse n k
  case sent =>
    intro n k there
    by_cases same : n = original
    · subst same
      rw [Finmap.lookup_insert, Option.some.injEq] at there
      subst there
      split at named
      case isTrue => exact .inr ⟨nonce, named⟩
      case isFalse plain =>
        simp only [Bool.or_eq_true, not_or, decide_eq_true_eq] at plain
        exact .inl ⟨named, by rw [named]; omega⟩
    · rw [Finmap.lookup_insert_of_ne _ same] at there
      exact right.sent n k there
  case small =>
    have outside : kiro ∉ registry.kiroToOriginal := Finmap.lookup_eq_none.1 unused
    have before := right.small
    simp only [Maps.size_insert, if_neg outside, List.length_cons]
    omega

theorem registerAll {sha : Sha256} {all done : List String} {registry : ToolNameRegistry} (todo : List String)
    (right : Registered sha all done registry) (apart : (todo.reverse ++ done).Nodup)
    (enough : ∀ name ∈ todo, ∃ tried : Finset Nat, todo.length + done.length ≤ tried.card ∧
      (∀ n ∈ tried, n < nonces) ∧
        Set.InjOn (fun n => (sha (Bytes.utf8 (nonceText name n))).toList.take 8) tried) :
    ∃ after, todo.foldlM (register sha all) registry = some after ∧
      Registered sha all (todo.reverse ++ done) after := by
  induction todo generalizing done registry with
  | nil => exact ⟨registry, rfl, right⟩
  | cons name todo ih =>
    have fresh : name ∉ done := by
      intro inside
      simp only [List.reverse_cons, List.append_assoc, List.singleton_append, List.nodup_append] at apart
      exact (List.nodup_cons.1 apart.2.1).1 inside
    obtain ⟨tried, many, bounded, different⟩ := enough name List.mem_cons_self
    rw [List.length_cons] at many
    obtain ⟨next, step⟩ := register_ends right ⟨tried, by omega, bounded, different⟩
    have kept := register_keeps right fresh step
    have order : todo.reverse ++ name :: done = (name :: todo).reverse ++ done := by simp
    obtain ⟨after, rest, final⟩ := ih kept (order ▸ apart) fun other member => by
      obtain ⟨tried, many, usable⟩ := enough other (List.mem_cons_of_mem name member)
      refine ⟨tried, ?_, usable⟩
      simp only [List.length_cons] at many ⊢
      omega
    refine ⟨after, ?_, order ▸ final⟩
    rw [List.foldlM_cons, step]
    exact rest

theorem mem_originals {names : List String} : name ∈ originals names ↔ name ∈ names ∧ name ≠ "" := by
  simp [originals]

theorem new_registers (sha : Sha256) (names : List String) (enough : EnoughDigests sha names) :
    ∃ registry, new sha names = some registry ∧ Registered sha (originals names) (originals names).reverse registry := by
  have fewer : (originals names).length ≤ names.length := by
    rw [originals, List.length_insertionSort]
    exact ((List.dedup_sublist _).trans List.filter_sublist).length_le
  have apart : (originals names).Nodup := by
    rw [originals, (List.perm_insertionSort (· ≤ ·) _).nodup_iff]
    exact List.nodup_dedup _
  have every := registerAll (originals names) (Registered.empty sha (originals names))
    (by simpa using apart) fun name member => by
      obtain ⟨tried, many, usable⟩ := enough name (mem_originals.1 member).1
      exact ⟨tried, by simpa using fewer.trans many, usable⟩
  simpa [new] using every

section Catalogue

variable {sha : Sha256} {all done : List String} {registry : ToolNameRegistry}

theorem Registered.lookup_kiroName (right : Registered sha all done registry) (member : name ∈ done) :
    registry.originalToKiro.lookup name = some (kiroName sha registry name) := by
  obtain ⟨k, there⟩ := (right.known name).1 member
  rw [kiroName, there, Option.getD_some]

theorem Registered.restored (right : Registered sha all done registry) (member : name ∈ done) :
    registry.restoreMap.lookup (kiroName sha registry name) = some name :=
  (right.inverse name _).1 (right.lookup_kiroName member)

theorem Registered.kiroName_inj (right : Registered sha all done registry) {a b : String} (a_known : a ∈ done)
    (b_known : b ∈ done) (same : kiroName sha registry a = kiroName sha registry b) : a = b := by
  have restored := right.restored a_known
  rw [same, right.restored b_known] at restored
  exact (Option.some.inj restored).symm

theorem Registered.kiroName_plain (right : Registered sha all done registry) (member : name ∈ done) :
    Plain (kiroName sha registry name) := by
  obtain ⟨own, -⟩ | ⟨nonce, hashed⟩ := right.sent name _ (right.lookup_kiroName member)
  · rw [own]
    exact toolName_plain sha name
  · rw [hashed]
    exact collisionToolName_plain sha name nonce

end Catalogue

end ToolNameRegistry

end KiroProxy
