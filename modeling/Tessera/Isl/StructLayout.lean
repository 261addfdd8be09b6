import Mathlib.Algebra.Group.Nat.Defs
import Mathlib.Data.List.Basic

/-!
The layout of frozen structs by the schema checker of `api/isl`. Its sizes are machine
words: `wrap` says what becomes of a sum or a product, its remainder in the code and itself
in the layout that is meant. What the checker reports is left out, so that declarations it
refuses are laid out here, too.
-/
namespace Tessera.Isl
open List

inductive PrimType where
  | bool | int8 | int16 | int32 | int64 | uint8 | uint16 | uint32 | uint64 | float32 | float64

def PrimType.size : PrimType → Nat
  | .bool | .int8 | .uint8 => 1
  | .int16 | .uint16 => 2
  | .int32 | .uint32 | .float32 => 4
  | .int64 | .uint64 | .float64 => 8

inductive FieldType where
  | prim (p : PrimType)
  | named (name : String)
  | array (elem : FieldType) (len : Nat)
  | handle | vector | string

inductive SymKind where
  | enum (base : PrimType)
  | bits (base : PrimType)
  | struct | table | union | protocol | syscall | externStruct

/-- The types that have a place inside a struct. -/
inductive IrFieldType where
  | prim (p : PrimType)
  | enum (name : String) (base : PrimType)
  | bits (name : String) (base : PrimType)
  | handle
  | array (elem : IrFieldType) (len : Nat)
  | struct (name : String)

/-- The size and the alignment of each struct laid out so far. -/
abbrev StructLayout := String → Option (Nat × Nat)

structure Field where
  name : String
  ty : FieldType

structure IrField where
  name : String
  ty : IrFieldType
  offset : Nat
  size : Nat

structure StructDecl where
  name : String
  fields : List Field

structure IrStruct where
  name : String
  size : Nat
  align : Nat
  fields : List IrField

section
variable (symbols : String → Option SymKind) (wrap : Nat → Nat) (structs : StructLayout)

/-- Rounds up to a multiple of a power of two. -/
def alignUp (value align : Nat) : Nat := wrap (value + align - 1) / align * align

def IrFieldType.size : IrFieldType → Nat
  | .prim base | .enum _ base | .bits _ base => base.size
  | .handle => 4
  | .array elem len => wrap (elem.size * len)
  | .struct name => (structs name).elim 0 (·.1)

def IrFieldType.align : IrFieldType → Nat
  | .prim base | .enum _ base | .bits _ base => max base.size 1
  | .handle => 4
  | .array elem _ => elem.align
  | .struct name => (structs name).elim 1 (·.2)

def resolveInlineType : FieldType → Option IrFieldType
  | .prim p => some (.prim p)
  | .array elem len => (resolveInlineType elem).map (.array · len)
  | .handle => some .handle
  | .named name =>
    match symbols name with
    | some (.enum base) => some (.enum name base)
    | some (.bits base) => some (.bits name base)
    | some .struct => some (.struct name)
    | _ => none
  | .vector | .string => none

/-- The loop over the fields: those laid out, where they end, and the largest alignment. -/
def lowerFields : List Field → (cursor align : Nat) → List IrField × Nat × Nat
  | [], cursor, align => ([], cursor, align)
  | field :: rest, cursor, align =>
    match resolveInlineType symbols field.ty with
    | none => lowerFields rest cursor align
    | some ty =>
      let offset := alignUp wrap cursor (max (ty.align structs) 1)
      let size := ty.size wrap structs
      let later := lowerFields rest (wrap (offset + size)) (max align (ty.align structs))
      (⟨field.name, ty, offset, size⟩ :: later.1, later.2)

def lowerStruct (d : StructDecl) : IrStruct :=
  let lowered := lowerFields symbols wrap structs d.fields 0 1
  let align := min (max lowered.2.2 1) 8
  ⟨d.name, alignUp wrap lowered.2.1 (max align 1), align, lowered.1⟩

/-- The layouts after the structs of a schema, of which the last comes first here. -/
def lowerAll : List StructDecl → StructLayout
  | [] => fun _ => none
  | d :: before =>
    let s := lowerStruct symbols wrap (lowerAll before) d
    Function.update (lowerAll before) d.name (some (s.size, s.align))

end

/-- What the machine keeps of a size. -/
abbrev word (n : Nat) : Nat := n % 2 ^ 64

theorem le_alignUp {align : Nat} (value : Nat) (positive : 0 < align) : value ≤ alignUp id value align := by
  have split := Nat.div_add_mod (value + align - 1) align
  have rest := Nat.mod_lt (value + align - 1) positive
  rw [alignUp, id, Nat.mul_comm]
  omega

theorem alignUp_word_lt (value align : Nat) : alignUp word value align < 2 ^ 64 :=
  Nat.lt_of_le_of_lt (Nat.div_mul_le_self ..) (Nat.mod_lt _ (by decide))

/-- The sum before the rounding does not wrap either: the last multiple below the bound
    leaves room for it. -/
theorem alignUp_word {value align : Nat} (whole : align ∣ 8) (fits : alignUp id value align < 2 ^ 64) :
    alignUp word value align = alignUp id value align := by
  have positive := Nat.pos_of_dvd_of_pos whole (by decide)
  have start := le_alignUp value positive
  have behind : align ≤ 2 ^ 64 - alignUp id value align :=
    Nat.le_of_dvd (Nat.sub_pos_of_lt fits) (Nat.dvd_sub (Nat.dvd_trans whole (by decide)) (Nat.dvd_mul_left ..))
  have small : value + align - 1 < 2 ^ 64 := by omega
  rw [alignUp, word, Nat.mod_eq_of_lt small, alignUp, id]

/-- Fields that lie one behind the other between two places, each with its true size. -/
structure Laid (structs : StructLayout) (fields : List IrField) (start stop : Nat) : Prop where
  grows : start ≤ stop
  placed : ∀ f ∈ fields, start ≤ f.offset ∧ f.ty.align structs ∣ f.offset
  sized : ∀ f ∈ fields, f.size = f.ty.size id structs ∧ f.offset + f.size ≤ stop
  apart : fields.Pairwise fun f g => f.offset + f.size ≤ g.offset

/-- The sizes laid out so far are words, and the alignments divide eight. -/
def StructLayout.Sound (structs : StructLayout) : Prop :=
  ∀ name l, structs name = some l → l.1 < 2 ^ 64 ∧ l.2 ∣ 8

variable {symbols : String → Option SymKind} {structs : StructLayout} {d : StructDecl} {s : IrStruct}
  {before decls : List StructDecl}

section
variable (sound : structs.Sound)
include sound

theorem size_word (ty : IrFieldType) : ty.size word structs = word (ty.size id structs) := by
  induction ty with
  | prim base | enum _ base | bits _ base => cases base <;> rfl
  | handle => rfl
  | array elem len ih => rw [IrFieldType.size, ih, IrFieldType.size, word, word, id, Nat.mod_mul_mod]
  -- the recorded size of a struct is a word already
  | struct name =>
    rw [IrFieldType.size, IrFieldType.size]
    cases there : structs name with
    | none => rfl
    | some l => exact (Nat.mod_eq_of_lt (sound name l there).1).symm

theorem align_dvd (ty : IrFieldType) : ty.align structs ∣ 8 := by
  have prim : ∀ p : PrimType, max p.size 1 ∣ 8 := by
    intro p
    cases p <;> decide
  induction ty with
  | prim base | enum _ base | bits _ base => exact prim base
  | handle => exact ⟨2,rfl⟩
  | array elem len ih => exact ih
  | struct name =>
    rw [IrFieldType.align]
    cases there : structs name with
    | none => decide
    | some l => exact (sound name l there).2

theorem align_pos (ty : IrFieldType) : 1 ≤ ty.align structs := Nat.pos_of_dvd_of_pos (align_dvd sound ty) (by decide)

theorem laid_lowerFields (fields : List Field) (cursor align : Nat) :
    Laid structs (lowerFields symbols id structs fields cursor align).1 cursor
      (lowerFields symbols id structs fields cursor align).2.1 := by
  induction fields generalizing cursor align with
  | nil => exact ⟨Nat.le_refl _,forall_mem_nil _,forall_mem_nil _,.nil⟩
  | cons field rest ih =>
    unfold lowerFields
    split
    · exact ih cursor align
    rename_i ty _
    have positive := align_pos sound ty
    have start := le_alignUp cursor positive
    rw [Nat.max_eq_left positive]
    have later := ih (alignUp id cursor (ty.align structs) + ty.size id structs) (max align (ty.align structs))
    have grows := later.grows
    refine ⟨Nat.le_trans start (Nat.le_of_add_right_le grows),
      forall_mem_cons.mpr ⟨⟨start,Nat.dvd_mul_left ..⟩,fun f mem => ?_⟩,
      forall_mem_cons.mpr ⟨⟨rfl,grows⟩,later.sized⟩,.cons (fun f mem => (later.placed f mem).1) later.apart⟩
    exact ⟨Nat.le_trans start (Nat.le_of_add_right_le (later.placed f mem).1),(later.placed f mem).2⟩

theorem lowerFields_word {fields : List Field} {cursor align : Nat}
    (fits : (lowerFields symbols id structs fields cursor align).2.1 < 2 ^ 64) :
    lowerFields symbols word structs fields cursor align = lowerFields symbols id structs fields cursor align := by
  induction fields generalizing cursor align with
  | nil => rfl
  | cons field rest ih =>
    cases resolved : resolveInlineType symbols field.ty with
    | none =>
      simp only [lowerFields, resolved] at fits ⊢
      exact ih fits
    | some ty =>
    simp only [lowerFields, resolved, id] at fits ⊢
    rw [Nat.max_eq_left (align_pos sound ty)] at fits ⊢
    -- the place where the last field ends bounds every earlier one, so that nothing wraps on the way
    have grows := Nat.lt_of_le_of_lt (laid_lowerFields sound rest _ _).grows fits
    have size : ty.size word structs = ty.size id structs := by
      rw [size_word sound]
      exact Nat.mod_eq_of_lt (by omega)
    rw [alignUp_word (align_dvd sound ty) (by omega), size, word, Nat.mod_eq_of_lt grows, ih fits]

theorem lowerFields_align {fields : List Field} {cursor align : Nat} (whole : align ∣ 8) :
    (lowerFields symbols id structs fields cursor align).2.2 ∣ 8 := by
  induction fields generalizing cursor align with
  | nil => exact whole
  | cons field rest ih =>
    unfold lowerFields
    split
    · exact ih whole
    · rename_i ty _
      apply ih
      rw [Nat.max_def]
      split
      · exact align_dvd sound ty
      · exact whole

/-- The bounds put on the alignment change nothing. -/
theorem align_kept (symbols : String → Option SymKind) (d : StructDecl) :
    ∃ align, align ∣ 8 ∧ (lowerFields symbols id structs d.fields 0 1).2.2 = align ∧
      max align 1 = align ∧ min align 8 = align := by
  have whole : (lowerFields symbols id structs d.fields 0 1).2.2 ∣ 8 := lowerFields_align sound (by decide)
  have positive := Nat.pos_of_dvd_of_pos whole (by decide)
  have small := Nat.le_of_dvd (by decide) whole
  exact ⟨_,whole,rfl,by omega,by omega⟩

theorem lowerStruct_word (fits : (lowerStruct symbols id structs d).size < 2 ^ 64) :
    lowerStruct symbols word structs d = lowerStruct symbols id structs d := by
  have room := Nat.lt_of_le_of_lt (le_alignUp _ (Nat.le_max_right ..)) fits
  obtain ⟨align,whole,same,positive,small⟩ := align_kept sound symbols d
  simp only [lowerStruct, lowerFields_word sound room, same, positive, small] at fits ⊢
  rw [alignUp_word whole fits]

end

/-- The true size of every struct of the schema is a word. -/
def Fits (symbols : String → Option SymKind) (decls : List StructDecl) : Prop :=
  ∀ d before, d :: before <:+ decls → (lowerStruct symbols id (lowerAll symbols id before) d).size < 2 ^ 64

theorem Fits.tail (fits : Fits symbols (d :: before)) : Fits symbols before :=
  fun d' before' part => fits d' before' (part.trans (suffix_cons ..))

theorem lowerAll_word (fits : Fits symbols decls) :
    lowerAll symbols word decls = lowerAll symbols id decls ∧ (lowerAll symbols id decls).Sound := by
  induction decls with
  | nil => exact ⟨rfl,fun _ _ there => by cases there⟩
  | cons d before ih =>
    obtain ⟨same,sound⟩ := ih fits.tail
    have room := fits d before suffix_rfl
    obtain ⟨_,whole,last,positive,small⟩ := align_kept sound symbols d
    simp only [lowerAll, same, lowerStruct_word sound room, true_and]
    intro name l there
    rw [Function.update_apply] at there
    split at there
    · cases there
      refine ⟨room,?_⟩
      rwa [lowerStruct, last, positive, small]
    · exact sound name l there

/-- The layout recorded for a struct is the one that is meant, and a valid one: every field lies
    at a multiple of its alignment, behind the fields before it and inside the size. -/
structure Right (symbols : String → Option SymKind) (before : List StructDecl) (d : StructDecl) (s : IrStruct) :
    Prop where
  others : lowerAll symbols word before = lowerAll symbols id before
  same : s = lowerStruct symbols id (lowerAll symbols id before) d
  laid : Laid (lowerAll symbols word before) s.fields 0 s.size
  whole : s.align ∣ s.size

/-- Every struct of a schema is laid out as is meant exactly if their true sizes are words. -/
theorem struct_layout_is_valid_iff (symbols : String → Option SymKind) (decls : List StructDecl) :
    (∀ d before, d :: before <:+ decls →
      Right symbols before d (lowerStruct symbols word (lowerAll symbols word before) d)) ↔ Fits symbols decls := by
  constructor
  · intro right d before part
    rw [← (right d before part).same]
    exact alignUp_word_lt ..
  · intro fits d before part
    have inside : Fits symbols (d :: before) := fun d' before' later => fits d' before' (later.trans part)
    obtain ⟨others,sound⟩ := lowerAll_word inside.tail
    have same := lowerStruct_word sound (inside d before suffix_rfl)
    rw [← others] at same sound
    rw [same]
    have laid : Laid _ (lowerFields symbols id _ d.fields 0 1).1 0 _ := laid_lowerFields sound d.fields 0 1
    refine ⟨others,by rw [others],⟨Nat.zero_le _,laid.placed,fun f mem => ?_,laid.apart⟩,?_⟩
    · exact ⟨(laid.sized f mem).1,Nat.le_trans (laid.sized f mem).2 (le_alignUp _ (Nat.le_max_right ..))⟩
    · obtain ⟨_,_,last,positive,small⟩ := align_kept sound symbols d
      simp only [lowerStruct, last, positive, small]
      exact Nat.dvd_mul_left ..

/-- The length of an array is not checked: a field larger than the address space is
    recorded with eight bytes. -/
theorem oversized_struct_is_recorded_small : lowerStruct (fun _ => none) word (fun _ => none)
        ⟨"s", [⟨"a", .array (.prim .uint64) (2 ^ 61 + 1)⟩, ⟨"b", .prim .uint64⟩]⟩ =
      ⟨"s", 16, 8, [⟨"a", .array (.prim .uint64) (2 ^ 61 + 1), 0, 8⟩, ⟨"b", .prim .uint64, 8, 8⟩]⟩ ∧
      (IrFieldType.array (.prim .uint64) (2 ^ 61 + 1)).size id (fun _ => none) = 2 ^ 64 + 8 := by
  exact ⟨rfl,rfl⟩

end Tessera.Isl
