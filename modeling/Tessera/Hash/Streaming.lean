import Mathlib.Algebra.Group.Nat.Defs
import Mathlib.Data.List.Basic

/-!
The streaming hashes of `api/hash`. The compression functions, the initial state and the
words a state is made of are left open: what is shown holds for any. Of the partial block
only the live bytes are kept. A digest is the words of the final state, most significant
byte first.
-/
namespace Tessera.Hash
open List

abbrev Bytes := List UInt8

def toBe : (width value : Nat) → Bytes
  | 0, _ => []
  | width + 1, value => UInt8.ofNat (value / 256 ^ width) :: toBe width value

structure Sha (S : Type) where
  state : S
  live : Bytes
  bits : Nat

def Sha.new (initial : S) : Sha S := ⟨initial, [], 0⟩

/-- An update counts the bits; `fold` is what it does to the state and the live bytes. -/
def Sha.update (fold : S → Bytes → Bytes → S × Bytes) (h : Sha S) (data : Bytes) : Sha S :=
  let out := fold h.state h.live data
  ⟨out.1, out.2, (h.bits + data.length * 8 % 2 ^ 64) % 2 ^ 64⟩

section
variable (compress : S → Bytes → S)

/-- Takes whole blocks while there are any, and leaves the remainder. -/
def chunks (block : Nat) (state : S) (rest : Bytes) : S × Bytes :=
  if 0 < block ∧ block ≤ rest.length then chunks block (compress state (rest.take block)) (rest.drop block)
  else (state, rest)
termination_by rest.length
decreasing_by simp only [length_drop]; omega

def fold256 (state : S) (live data : Bytes) : S × Bytes :=
  if live.length > 0 then
    let take := min (64 - live.length) data.length
    let filled := live ++ data.take take
    if filled.length < 64 then (state, filled) else chunks compress 64 (compress state filled) (data.drop take)
  else chunks compress 64 state data

def update256 : Sha S → Bytes → Sha S := Sha.update (fold256 compress)

def final256 (h : Sha S) : S :=
  let live := h.live ++ [0x80]
  if live.length > 56 then
    compress (compress h.state (live ++ replicate (64 - live.length) 0)) (replicate 56 0 ++ toBe 8 h.bits)
  else compress h.state (live ++ replicate (56 - live.length) 0 ++ toBe 8 h.bits)

def finish256 (words : S → List Nat) (h : Sha S) : Bytes := (words (final256 compress h)).flatMap (toBe 4)

def sha256 (words : S → List Nat) (initial : S) (data : Bytes) : Bytes :=
  finish256 compress words (update256 compress (.new initial) data)

/-- Whole blocks, and then the remainder takes the place of the live bytes unless it is empty. -/
def rest512 (state : S) (live rest : Bytes) : S × Bytes :=
  let out := chunks compress 128 state rest
  if out.2 = [] then (out.1, live) else out

def fold512 (state : S) (live data : Bytes) : S × Bytes :=
  if live.length > 0 then
    let take := min (128 - live.length) data.length
    let filled := live ++ data.take take
    -- without the return of the other hash: a block that is not full has used up the data
    if filled.length = 128 then rest512 compress (compress state filled) [] (data.drop take)
    else rest512 compress state filled (data.drop take)
  else rest512 compress state live data

def update512 : Sha S → Bytes → Sha S := Sha.update (fold512 compress)

def padByte (h : S × Bytes) (byte : UInt8) : S × Bytes :=
  let live := h.2 ++ [byte]
  if live.length = 128 then (compress h.1 live, []) else (h.1, live)

/-- The loop of zeros before the length; fewer than a block are needed. -/
def padZeros : (fuel : Nat) → S × Bytes → S × Bytes
  | 0, h => h
  | fuel + 1, h => if h.2.length ≠ 112 then padZeros fuel (padByte compress h 0) else h

def final512 (h : Sha S) : S :=
  let marked := padByte compress (h.state, h.live) 0x80
  ((replicate 8 0 ++ toBe 8 h.bits).foldl (padByte compress) (padZeros compress 128 marked)).1

def finish512 (words : S → List Nat) (h : Sha S) : Bytes := (words (final512 compress h)).flatMap (toBe 8)

def sha512 (words : S → List Nat) (initial : S) (data : Bytes) : Bytes :=
  finish512 compress words (update512 compress (.new initial) data)

/-- The message with the mark, zeros up to a whole block and its length in bits behind it. -/
def padded (block width : Nat) (message : Bytes) : Bytes :=
  message ++ 0x80 :: (replicate ((block - (message.length + 1 + width) % block) % block) 0 ++
    toBe width (message.length * 8))

/-- What the standard asks for: the state after all blocks of the padded message. -/
def standard (block width : Nat) (initial : S) (message : Bytes) : S :=
  (chunks compress block initial (padded block width message)).1

end

variable {compress : S → Bytes → S} {initial s : S} {block : Nat} {xs ys live message rest : Bytes} {h : Sha S}
  {p : S × Bytes} {fold : S → Bytes → Bytes → S × Bytes}

theorem toBe_length (width value : Nat) : (toBe width value).length = width := by
  induction width with
  | zero => rfl
  | succ width ih => rw [toBe, length_cons, ih]

theorem toBe_wide {value width : Nat} (small : value < 256 ^ width) (more : Nat) :
    toBe (width + more) value = replicate more 0 ++ toBe width value := by
  induction more with
  | zero => rfl
  | succ more ih =>
    have none : value / 256 ^ (width + more) = 0 :=
      Nat.div_eq_of_lt (Nat.lt_of_lt_of_le small (Nat.pow_le_pow_right (by decide) (Nat.le_add_right ..)))
    rw [← Nat.add_assoc, toBe, none, ih]
    rfl

theorem chunks_short (short : xs.length < block) : chunks compress block s xs = (s, xs) := by
  rw [chunks, if_neg (by omega)]

section
variable (positive : 0 < block)
include positive

theorem chunks_block (whole : xs.length = block) :
    chunks compress block s (xs ++ ys) = chunks compress block (compress s xs) ys := by
  subst whole
  rw [chunks, if_pos (by simp [positive]), take_left, drop_left]

theorem chunks_append : chunks compress block s (xs ++ ys) =
    chunks compress block (chunks compress block s xs).1 ((chunks compress block s xs).2 ++ ys) := by
  fun_induction chunks compress block s xs with
  | case1 s xs more ih =>
    rw [← ih, ← chunks_block positive (length_take_of_le more.2), ← append_assoc, take_append_drop]
  | case2 => rfl

theorem chunks_rest : (chunks compress block s xs).2.length = xs.length % block := by
  fun_induction chunks compress block s xs with
  | case1 s xs more ih => rw [ih, length_drop, ← Nat.mod_eq_sub_mod more.2]
  | case2 s xs few =>
    exact (Nat.mod_eq_of_lt (show xs.length < block by omega)).symm

/-- The padding leaves no remainder. -/
theorem chunks_padded (width : Nat) : (chunks compress block initial (padded block width message)).2 = [] := by
  have order (zeros : Nat) : message.length + (zeros + width + 1) = message.length + 1 + width + zeros := by omega
  rw [← length_eq_zero_iff, chunks_rest positive, padded]
  simp only [length_append, length_cons, length_replicate, toBe_length]
  rw [order, Nat.add_mod_mod]
  generalize message.length + 1 + width = total
  have whole : total + (block - total % block) = block * (total / block + 1) := by
    have split := Nat.div_add_mod total block
    have below := Nat.mod_lt total positive
    rw [Nat.mul_succ]
    omega
  rw [whole, Nat.mul_mod_right]

variable (folds : ∀ s live data, live.length < block → fold s live data = chunks compress block s (live ++ data))
include folds

/-- After any pieces the state and the live bytes are where taking blocks from the message ends. -/
theorem folded_pieces (folded : chunks compress block initial message = (h.state, h.live))
    (counted : h.bits = message.length * 8 % 2 ^ 64) (pieces : List Bytes) :
    let fed := pieces.foldl (Sha.update fold) h
    chunks compress block initial (message ++ pieces.flatten) = (fed.state, fed.live) ∧
      fed.bits = (message ++ pieces.flatten).length * 8 % 2 ^ 64 := by
  induction pieces generalizing message h with
  | nil => simpa using ⟨folded,counted⟩
  | cons data rest ih =>
    rw [flatten_cons, ← append_assoc, foldl_cons]
    have room : h.live.length = message.length % block := by rw [← chunks_rest positive, folded]
    apply ih
    · rw [chunks_append positive, folded, ← folds _ _ _ (room ▸ Nat.mod_lt _ positive)]
      rfl
    · change (h.bits + data.length * 8 % 2 ^ 64) % 2 ^ 64 = _
      rw [counted, length_append]
      omega

theorem fed_pieces (pieces : List Bytes) : let fed := pieces.foldl (Sha.update fold) (.new initial)
    chunks compress block initial pieces.flatten = (fed.state, fed.live) ∧
      fed.bits = pieces.flatten.length * 8 % 2 ^ 64 :=
  folded_pieces (h := .new initial) positive folds (chunks_short positive) rfl pieces

end

theorem fold256_eq (s : S) (live data : Bytes) (room : live.length < 64) :
    fold256 compress s live data = chunks compress 64 s (live ++ data) := by
  unfold fold256
  dsimp only
  split
  · split
    · rename_i few
      rw [length_append, length_take] at few
      rw [take_of_length_le (by omega), chunks_short (by rw [length_append]; omega)]
    · rename_i many
      rw [length_append, length_take] at many
      rw [← chunks_block (by decide) (by rw [length_append, length_take]; omega), append_assoc, take_append_drop]
  · rename_i empty
    rw [eq_nil_of_length_eq_zero (Nat.eq_zero_of_not_pos empty), nil_append]

theorem rest512_eq (room : live.length < 128) (apart : live = [] ∨ rest = []) :
    rest512 compress s live rest = chunks compress 128 s (live ++ rest) := by
  unfold rest512
  dsimp only
  rcases apart with rfl | rfl
  · split
    · exact Prod.ext rfl (Eq.symm ‹_›)
    · rfl
  · rw [append_nil, chunks_short room, chunks_short (by decide), if_pos rfl]

theorem fold512_eq (s : S) (live data : Bytes) (room : live.length < 128) :
    fold512 compress s live data = chunks compress 128 s (live ++ data) := by
  unfold fold512
  dsimp only
  split
  · have joined : live ++ data = live ++ data.take (min (128 - live.length) data.length) ++
        data.drop (min (128 - live.length) data.length) := by
      rw [append_assoc, take_append_drop]
    rw [joined]
    split
    · rename_i whole
      rw [chunks_block (by decide) whole, rest512_eq (by decide) (.inl rfl), nil_append]
    · rename_i few
      rw [length_append, length_take] at few
      have spent : data.drop (min (128 - live.length) data.length) = [] := drop_of_length_le (by omega)
      exact rest512_eq (by rw [length_append, length_take]; omega) (.inr spent)
  · rename_i empty
    exact rest512_eq room (.inl (eq_nil_of_length_eq_zero (Nat.eq_zero_of_not_pos empty)))

theorem padByte_eq (room : p.2.length < 128) (byte : UInt8) :
    padByte compress p byte = chunks compress 128 p.1 (p.2 ++ [byte]) := by
  unfold padByte
  dsimp only
  split
  · rename_i whole
    rw [← append_nil (p.2 ++ [byte]), chunks_block (by decide) whole, chunks_short (by decide), append_nil]
  · rename_i few
    rw [length_append, length_singleton] at few
    rw [chunks_short (by rw [length_append, length_singleton]; omega)]

theorem padByte_live (compress : S → Bytes → S) (room : p.2.length < 128) (byte : UInt8) :
    (padByte compress p byte).2.length = (p.2.length + 1) % 128 := by
  rw [padByte_eq room, chunks_rest (by decide), length_append, length_singleton]

theorem padBytes_eq (room : p.2.length < 128) (bytes : Bytes) :
    bytes.foldl (padByte compress) p = chunks compress 128 p.1 (p.2 ++ bytes) := by
  induction bytes generalizing p with
  | nil => rw [append_nil, chunks_short room, foldl_nil]
  | cons byte rest ih =>
    have next := padByte_live compress room byte
    rw [foldl_cons, ih (by omega), padByte_eq room, ← chunks_append (by decide), append_assoc, singleton_append]

theorem padZeros_eq (fuel : Nat) (room : p.2.length < 128) (enough : (240 - p.2.length) % 128 ≤ fuel) :
    padZeros compress fuel p = (replicate ((240 - p.2.length) % 128) 0).foldl (padByte compress) p := by
  induction fuel generalizing p with
  | zero =>
    rw [Nat.le_zero.mp enough]
    rfl
  | succ fuel ih =>
    unfold padZeros
    split
    · -- one byte more is one zero less, also around the end of a block
      have next := padByte_live compress room 0
      have one : (240 - p.2.length) % 128 = (240 - (padByte compress p 0).2.length) % 128 + 1 := by omega
      rw [ih (by omega) (by omega), one, replicate_succ, foldl_cons]
    · rename_i there
      rw [not_not.mp there]
      rfl

theorem final256_eq (folded : chunks compress 64 initial message = (h.state, h.live))
    (counted : h.bits = message.length * 8) : final256 compress h = standard compress 64 8 initial message := by
  have live : h.live.length = message.length % 64 := by rw [← chunks_rest (by decide), folded]
  have last (s : S) (front : Bytes) (full : front.length = 56) :
      (chunks compress 64 s (front ++ toBe 8 h.bits)).1 = compress s (front ++ toBe 8 h.bits) := by
    rw [← append_nil (front ++ _), chunks_block (by decide) (by rw [length_append, toBe_length, full]),
      chunks_short (by decide), append_nil]
  rw [standard, padded, chunks_append (by decide), folded, ← counted, append_cons, ← append_assoc, final256]
  dsimp only
  split
  · -- the mark leaves no room for the length, which goes into a block of its own
    rename_i late
    rw [length_append, length_singleton] at late ⊢
    have zeros : (64 - (message.length + 1 + 8) % 64) % 64 = 64 - (h.live.length + 1) + 56 := by omega
    rw [zeros, replicate_add, ← append_assoc, append_assoc _ (replicate 56 0),
      chunks_block (by decide) (by rw [length_append, length_append, length_replicate, length_singleton]; omega),
      last _ _ (length_replicate ..)]
  · rename_i early
    rw [length_append, length_singleton] at early ⊢
    have zeros : (64 - (message.length + 1 + 8) % 64) % 64 = 56 - (h.live.length + 1) := by omega
    rw [zeros, last _ _ (by rw [length_append, length_append, length_replicate, length_singleton]; omega)]

theorem final512_eq (folded : chunks compress 128 initial message = (h.state, h.live))
    (counted : h.bits = message.length * 8) (short : message.length < 2 ^ 61) :
    final512 compress h = standard compress 128 16 initial message := by
  have live : h.live.length = message.length % 128 := by rw [← chunks_rest (by decide), folded]
  have room : h.live.length < 128 := by omega
  have next : (padByte compress (h.state, h.live) 0x80).2.length = (h.live.length + 1) % 128 :=
    padByte_live compress room 0x80
  have zeros : (128 - (message.length + 1 + 16) % 128) % 128 =
      (240 - (padByte compress (h.state, h.live) 0x80).2.length) % 128 := by omega
  have long : toBe 16 h.bits = replicate 8 0 ++ toBe 8 h.bits := toBe_wide (by omega) 8
  rw [standard, padded, chunks_append (by decide), folded, ← padBytes_eq room, foldl_cons, foldl_append, zeros,
    ← padZeros_eq 128 (by omega) (by omega), ← counted, long, final512]

section
variable (pieces : List Bytes) (short : pieces.flatten.length < 2 ^ 61)
include short

theorem stream256 : final256 compress (pieces.foldl (update256 compress) (.new initial)) =
    standard compress 64 8 initial pieces.flatten := by
  obtain ⟨folded,counted⟩ := fed_pieces (by decide) fold256_eq pieces
  exact final256_eq folded (counted.trans (Nat.mod_eq_of_lt (by omega)))

theorem stream512 : final512 compress (pieces.foldl (update512 compress) (.new initial)) =
    standard compress 128 16 initial pieces.flatten := by
  obtain ⟨folded,counted⟩ := fed_pieces (by decide) fold512_eq pieces
  exact final512_eq folded (counted.trans (Nat.mod_eq_of_lt (by omega))) short

end

/-- Fed in any pieces, each hash gives the bytes it gives for the message as a whole, and they are written,
    most significant first, from the state after all blocks of the padded message. -/
theorem streaming_hash_is_standard (compress : S → Bytes → S) (wide : T → Bytes → T) (words : S → List Nat)
    (wideWords : T → List Nat) (initial : S) (first : T)
    (pieces : List Bytes) (short : pieces.flatten.length < 2 ^ 61) :
    finish256 compress words (pieces.foldl (update256 compress) (.new initial)) =
        sha256 compress words initial pieces.flatten ∧
      (∃ final, final256 compress (pieces.foldl (update256 compress) (.new initial)) = final ∧
        chunks compress 64 initial (padded 64 8 pieces.flatten) = (final, []) ∧
        sha256 compress words initial pieces.flatten = (words final).flatMap (toBe 4)) ∧
      finish512 wide wideWords (pieces.foldl (update512 wide) (.new first)) =
        sha512 wide wideWords first pieces.flatten ∧
      ∃ final, final512 wide (pieces.foldl (update512 wide) (.new first)) = final ∧
        chunks wide 128 first (padded 128 16 pieces.flatten) = (final, []) ∧
        sha512 wide wideWords first pieces.flatten = (wideWords final).flatMap (toBe 8) := by
  have whole : [pieces.flatten].flatten = pieces.flatten := flatten_singleton
  have once256 : final256 compress (update256 compress (.new initial) pieces.flatten) = _ :=
    stream256 [pieces.flatten] (by rwa [whole])
  have once512 : final512 wide (update512 wide (.new first) pieces.flatten) = _ :=
    stream512 [pieces.flatten] (by rwa [whole])
  rw [whole] at once256 once512
  have all256 : final256 compress (pieces.foldl (update256 compress) (.new initial)) = _ := stream256 pieces short
  have all512 : final512 wide (pieces.foldl (update512 wide) (.new first)) = _ := stream512 pieces short
  refine ⟨?_,⟨_,all256,Prod.ext rfl (chunks_padded (by decide) 8),?_⟩,?_,
    ⟨_,all512,Prod.ext rfl (chunks_padded (by decide) 16),?_⟩⟩
  · rw [finish256, sha256, finish256, all256, once256]
  · rw [sha256, finish256, once256]
  · rw [finish512, sha512, finish512, all512, once512]
  · rw [sha512, finish512, once512]

theorem two_pieces_hash_as_one :
    finish256 (fun n b => n + b.length) (fun n => [n])
        ([[1], [2, 3]].foldl (update256 fun n b => n + b.length) (.new 0)) =
      sha256 (fun n b => n + b.length) (fun n => [n]) 0 [1, 2, 3] :=
  (streaming_hash_is_standard _ (fun n b => n + b.length) _ (fun n => [n]) 0 0 [[1], [2, 3]] (by decide)).1

end Tessera.Hash
