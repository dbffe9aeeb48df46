import Mathlib.Data.List.Basic
import Mathlib.Data.UInt
import Mathlib.Tactic.Common

/-!
Block ciphers over byte strings. A string whose length is a multiple of the
block size is the join of its blocks; the chained mode works block by block,
and its decryption undoes its encryption for every cipher and every initial
vector. Padding by repeated length bytes leaves exactly one way to remove it.
-/

namespace PapeSdk.BlockModes

abbrev Bytes := List UInt8

/-- A block cipher under a fixed key. -/
structure BlockCipher where
  blockSize : ℕ
  encrypt : Bytes → Bytes
  decrypt : Bytes → Bytes
  blockSize_pos : 0 < blockSize
  length_encrypt : ∀ block, block.length = blockSize → (encrypt block).length = blockSize
  length_decrypt : ∀ block, block.length = blockSize → (decrypt block).length = blockSize
  decrypt_encrypt : ∀ block, block.length = blockSize → decrypt (encrypt block) = block

def blocksOf (size : ℕ) : ℕ → Bytes → List Bytes
  | 0, _ => []
  | n + 1, data => data.take size :: blocksOf size n (data.drop size)

/-- Every block has the given length. -/
def Blocks (size : ℕ) (blocks : List Bytes) : Prop := ∀ block ∈ blocks, block.length = size

theorem Blocks.cons {size : ℕ} {block : Bytes} {blocks : List Bytes}
    (hblock : block.length = size) (h : Blocks size blocks) : Blocks size (block :: blocks) := by
  intro b hb
  rcases List.mem_cons.mp hb with rfl | hb
  · exact hblock
  · exact h b hb

theorem Blocks.head {size : ℕ} {block : Bytes} {blocks : List Bytes}
    (h : Blocks size (block :: blocks)) : block.length = size :=
  h block List.mem_cons_self

theorem Blocks.tail {size : ℕ} {block : Bytes} {blocks : List Bytes}
    (h : Blocks size (block :: blocks)) : Blocks size blocks :=
  fun b hb => h b (List.mem_cons_of_mem _ hb)

theorem Blocks.map {size : ℕ} {blocks : List Bytes} {f : Bytes → Bytes}
    (h : Blocks size blocks) (hf : ∀ b, b.length = size → (f b).length = size) :
    Blocks size (blocks.map f) := by
  intro b hb
  obtain ⟨a, ha, rfl⟩ := List.mem_map.mp hb
  exact hf a (h a ha)

theorem Blocks.length_flatten {size : ℕ} {blocks : List Bytes} (h : Blocks size blocks) :
    blocks.flatten.length = blocks.length * size := by
  induction blocks with
  | nil => simp
  | cons b bs ih =>
    rw [List.flatten_cons, List.length_append, ih h.tail, h.head, List.length_cons, Nat.succ_mul]
    omega

theorem blocksOf_flatten {size : ℕ} {blocks : List Bytes} (h : Blocks size blocks) :
    blocksOf size blocks.length blocks.flatten = blocks := by
  induction blocks with
  | nil => rfl
  | cons b bs ih =>
    have htake : (b ++ bs.flatten).take size = b := List.take_left' h.head
    have hdrop : (b ++ bs.flatten).drop size = bs.flatten := List.drop_left' h.head
    rw [List.length_cons, List.flatten_cons, blocksOf, htake, hdrop, ih h.tail]

theorem exists_blocks {size : ℕ} (n : ℕ) (data : Bytes) (h : data.length = n * size) :
    ∃ blocks, blocks.length = n ∧ Blocks size blocks ∧ blocks.flatten = data := by
  induction n generalizing data with
  | zero =>
    have hnil : data = [] := List.eq_nil_of_length_eq_zero (by omega)
    exact ⟨[], rfl, by simp [Blocks], by simp [hnil]⟩
  | succ n ih =>
    have hle : size ≤ data.length := by rw [h, Nat.succ_mul]; omega
    have hrest : (data.drop size).length = n * size := by
      rw [List.length_drop, h, Nat.succ_mul]
      omega
    obtain ⟨blocks, hlen, hblocks, hjoin⟩ := ih (data.drop size) hrest
    refine ⟨data.take size :: blocks, by rw [List.length_cons, hlen], ?_, ?_⟩
    · exact hblocks.cons (by rw [List.length_take]; omega)
    · rw [List.flatten_cons, hjoin, List.take_append_drop]

/-- A string of aligned length is the join of its blocks. -/
theorem blocks_of_aligned {size : ℕ} {data : Bytes} (h : data.length % size = 0) :
    ∃ blocks, Blocks size blocks ∧ blocks.flatten = data := by
  obtain ⟨blocks, -, hblocks, hjoin⟩ := @exists_blocks size (data.length / size) data
    (Nat.div_mul_cancel (Nat.dvd_of_mod_eq_zero h)).symm
  exact ⟨blocks, hblocks, hjoin⟩

theorem map_flatten_length {size : ℕ} {blocks : List Bytes} {f : Bytes → Bytes}
    (h : Blocks size blocks) (hf : ∀ b, b.length = size → (f b).length = size) :
    (blocks.map f).flatten.length = blocks.flatten.length := by
  rw [(h.map hf).length_flatten, h.length_flatten, List.length_map]

theorem map_decrypt_encrypt (c : BlockCipher) {blocks : List Bytes}
    (h : Blocks c.blockSize blocks) :
    (blocks.map c.encrypt).map c.decrypt = blocks := by
  induction blocks with
  | nil => rfl
  | cons b bs ih =>
    rw [List.map_cons, List.map_cons, ih h.tail, c.decrypt_encrypt b h.head]

def xorBytes (a b : Bytes) : Bytes := List.zipWith (· ^^^ ·) a b

theorem length_xorBytes {a b : Bytes} (h : a.length = b.length) :
    (xorBytes a b).length = b.length := by
  rw [xorBytes, List.length_zipWith, h, Nat.min_self]

theorem xorBytes_cancel {a b : Bytes} (h : a.length = b.length) :
    xorBytes a (xorBytes a b) = b := by
  induction a generalizing b with
  | nil =>
    cases b with
    | nil => rfl
    | cons y ys => simp at h
  | cons x xs ih =>
    cases b with
    | nil => simp at h
    | cons y ys =>
      have hlen : xs.length = ys.length := by simpa using h
      have hhead : x ^^^ (x ^^^ y) = y := by rw [← UInt8.xor_assoc, UInt8.xor_self, UInt8.zero_xor]
      have htail : xorBytes xs (xorBytes xs ys) = ys := ih hlen
      simp only [xorBytes, List.zipWith_cons_cons] at htail ⊢
      rw [hhead, htail]

def chainEncrypt (c : BlockCipher) : Bytes → List Bytes → List Bytes
  | _, [] => []
  | iv, block :: rest =>
    let out := c.encrypt (xorBytes iv block)
    out :: chainEncrypt c out rest

def chainDecrypt (c : BlockCipher) : Bytes → List Bytes → List Bytes
  | _, [] => []
  | iv, block :: rest => xorBytes iv (c.decrypt block) :: chainDecrypt c block rest

theorem length_chained (c : BlockCipher) {iv block : Bytes} (hiv : iv.length = c.blockSize)
    (hblock : block.length = c.blockSize) :
    (c.encrypt (xorBytes iv block)).length = c.blockSize := by
  apply c.length_encrypt
  rw [length_xorBytes (by rw [hiv, hblock]), hblock]

theorem chainEncrypt_blocks (c : BlockCipher) {iv : Bytes} {blocks : List Bytes}
    (hiv : iv.length = c.blockSize) (h : Blocks c.blockSize blocks) :
    Blocks c.blockSize (chainEncrypt c iv blocks) := by
  induction blocks generalizing iv with
  | nil => exact h
  | cons b bs ih =>
    have hout := length_chained c hiv h.head
    exact (ih hout h.tail).cons hout

theorem length_chainEncrypt (c : BlockCipher) (iv : Bytes) (blocks : List Bytes) :
    (chainEncrypt c iv blocks).length = blocks.length := by
  induction blocks generalizing iv with
  | nil => rfl
  | cons b bs ih => simp only [chainEncrypt, List.length_cons, ih]

theorem chainDecrypt_chainEncrypt (c : BlockCipher) {iv : Bytes} {blocks : List Bytes}
    (hiv : iv.length = c.blockSize) (h : Blocks c.blockSize blocks) :
    chainDecrypt c iv (chainEncrypt c iv blocks) = blocks := by
  induction blocks generalizing iv with
  | nil => rfl
  | cons b bs ih =>
    have hlen : iv.length = b.length := by rw [hiv, h.head]
    have hxor : (xorBytes iv b).length = c.blockSize := by rw [length_xorBytes hlen, h.head]
    have hhead : xorBytes iv (c.decrypt (c.encrypt (xorBytes iv b))) = b := by
      rw [c.decrypt_encrypt _ hxor, xorBytes_cancel hlen]
    have htail := ih (length_chained c hiv h.head) h.tail
    simp only [chainEncrypt, chainDecrypt]
    rw [hhead, htail]

/-- Chained encryption of a string of whole blocks. -/
def cbcEncrypt (c : BlockCipher) (iv data : Bytes) : Bytes :=
  (chainEncrypt c iv (blocksOf c.blockSize (data.length / c.blockSize) data)).flatten

def cbcDecrypt (c : BlockCipher) (iv data : Bytes) : Bytes :=
  (chainDecrypt c iv (blocksOf c.blockSize (data.length / c.blockSize) data)).flatten

theorem blocksOf_data (c : BlockCipher) {blocks : List Bytes} (h : Blocks c.blockSize blocks) :
    blocksOf c.blockSize (blocks.flatten.length / c.blockSize) blocks.flatten = blocks := by
  rw [h.length_flatten, Nat.mul_div_cancel _ c.blockSize_pos, blocksOf_flatten h]

theorem length_cbcEncrypt (c : BlockCipher) {iv data : Bytes} (hiv : iv.length = c.blockSize)
    (h : data.length % c.blockSize = 0) : (cbcEncrypt c iv data).length = data.length := by
  obtain ⟨blocks, hblocks, rfl⟩ := blocks_of_aligned h
  rw [cbcEncrypt, blocksOf_data c hblocks, (chainEncrypt_blocks c hiv hblocks).length_flatten,
    length_chainEncrypt, hblocks.length_flatten]

theorem cbcDecrypt_cbcEncrypt (c : BlockCipher) {iv data : Bytes}
    (hiv : iv.length = c.blockSize) (h : data.length % c.blockSize = 0) :
    cbcDecrypt c iv (cbcEncrypt c iv data) = data := by
  obtain ⟨blocks, hblocks, rfl⟩ := blocks_of_aligned h
  have hout := chainEncrypt_blocks c hiv hblocks
  rw [cbcEncrypt, blocksOf_data c hblocks, cbcDecrypt, blocksOf_data c hout,
    chainDecrypt_chainEncrypt c hiv hblocks]

/-- The data followed by one to `size` bytes that each give their number. -/
def Padded (size : ℕ) (data padded : Bytes) : Prop :=
  ∃ k, 0 < k ∧ k ≤ size ∧ k < 256 ∧ (data.length + k) % size = 0 ∧
    padded = data ++ List.replicate k (UInt8.ofNat k)

theorem Padded.length {size : ℕ} {data padded : Bytes} (h : Padded size data padded) :
    padded ≠ [] ∧ padded.length % size = 0 := by
  obtain ⟨k, hpos, -, -, hmod, rfl⟩ := h
  constructor
  · intro hnil
    have hlen := congrArg List.length hnil
    simp only [List.length_append, List.length_replicate, List.length_nil] at hlen
    omega
  · simpa using hmod

end PapeSdk.BlockModes
