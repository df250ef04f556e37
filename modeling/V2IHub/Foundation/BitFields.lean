import Mathlib.Tactic

/-! Numbers as sequences of bit fields, the most significant one first. -/
namespace V2IHub.Foundation

/-- The number with these fields, each given with its size in bits. -/
def packFields : List (ℕ × ℕ) → ℕ
  | [] => 0
  | (_, value) :: fields => value * 2 ^ (fields.map Prod.fst).sum + packFields fields

/-- The fields of a number. -/
def unpackFields : List ℕ → ℕ → List ℕ
  | [], _ => []
  | size :: sizes, value => value / 2 ^ sizes.sum % 2 ^ size :: unpackFields sizes value

/-- Each value fits into its field. -/
def FieldsFit (fields : List (ℕ × ℕ)) : Prop := ∀ f ∈ fields, f.2 < 2 ^ f.1

instance decidableFieldsFit (fields : List (ℕ × ℕ)) : Decidable (FieldsFit fields) :=
  inferInstanceAs (Decidable (∀ f ∈ fields, f.2 < 2 ^ f.1))

section Fields
variable {fields : List (ℕ × ℕ)} {sizes : List ℕ} {value size : ℕ}

theorem packFields_lt (h : FieldsFit fields) :
    packFields fields < 2 ^ (fields.map Prod.fst).sum := by
  induction fields with
  | nil => simp [packFields]
  | cons f fields ih =>
    obtain ⟨hf, hfields⟩ := List.forall_mem_cons.mp h
    have hrest := ih hfields
    have hhigh : f.2 + 1 ≤ 2 ^ f.1 := hf
    rw [packFields, List.map_cons, List.sum_cons, pow_add]
    calc f.2 * 2 ^ (fields.map Prod.fst).sum + packFields fields
        < f.2 * 2 ^ (fields.map Prod.fst).sum + 2 ^ (fields.map Prod.fst).sum := by omega
      _ = (f.2 + 1) * 2 ^ (fields.map Prod.fst).sum := by ring
      _ ≤ 2 ^ f.1 * 2 ^ (fields.map Prod.fst).sum := Nat.mul_le_mul_right _ hhigh

@[simp] theorem unpackFields_length (sizes : List ℕ) (value : ℕ) :
    (unpackFields sizes value).length = sizes.length := by
  induction sizes with
  | nil => rfl
  | cons size sizes ih => simp [unpackFields, ih]

/-- Only the low bits count. -/
theorem unpackFields_add_mul (sizes : List ℕ) (value high : ℕ) {k : ℕ} (hk : sizes.sum ≤ k) :
    unpackFields sizes (high * 2 ^ k + value) = unpackFields sizes value := by
  induction sizes with
  | nil => rfl
  | cons size sizes ih =>
    rw [List.sum_cons] at hk
    obtain ⟨j, rfl⟩ := Nat.exists_eq_add_of_le hk
    have hfactor : high * 2 ^ (size + sizes.sum + j) =
        high * 2 ^ j * 2 ^ size * 2 ^ sizes.sum := by ring
    rw [unpackFields, unpackFields, ih (by omega), hfactor, Nat.add_comm,
      Nat.add_mul_div_right _ _ (by positivity), Nat.add_mul_mod_self_right]

theorem unpackFields_packFields (h : FieldsFit fields) :
    unpackFields (fields.map Prod.fst) (packFields fields) = fields.map Prod.snd := by
  induction fields with
  | nil => rfl
  | cons f fields ih =>
    obtain ⟨hf, hfields⟩ := List.forall_mem_cons.mp h
    have hlow := packFields_lt hfields
    rw [List.map_cons, List.map_cons, unpackFields, packFields]
    rw [unpackFields_add_mul _ _ _ le_rfl, ih hfields, Nat.add_comm,
      Nat.add_mul_div_right _ _ (by positivity), Nat.div_eq_of_lt hlow, Nat.zero_add,
      Nat.mod_eq_of_lt hf]

theorem unpackFields_fit (sizes : List ℕ) (value : ℕ) :
    FieldsFit (sizes.zip (unpackFields sizes value)) := by
  induction sizes with
  | nil => simp [FieldsFit, unpackFields]
  | cons size sizes ih =>
    rw [unpackFields, List.zip_cons_cons]
    exact List.forall_mem_cons.mpr ⟨Nat.mod_lt _ (by positivity), ih⟩

theorem packFields_unpackFields (sizes : List ℕ) (value : ℕ) :
    packFields (sizes.zip (unpackFields sizes value)) = value % 2 ^ sizes.sum := by
  induction sizes with
  | nil => simp [packFields, unpackFields, Nat.mod_one]
  | cons size sizes ih =>
    have hsizes : ((sizes.zip (unpackFields sizes value)).map Prod.fst).sum = sizes.sum := by
      rw [List.map_fst_zip (by simp)]
    rw [unpackFields, List.zip_cons_cons, packFields, hsizes, ih, List.sum_cons, Nat.add_comm size,
      pow_add, Nat.mod_mul]
    ring

theorem packFields_append (fields fields' : List (ℕ × ℕ)) :
    packFields (fields ++ fields') =
      packFields fields * 2 ^ (fields'.map Prod.fst).sum + packFields fields' := by
  induction fields with
  | nil => simp [packFields]
  | cons f fields ih =>
    rw [List.cons_append, packFields, packFields, ih, List.map_append, List.sum_append, pow_add]
    ring

end Fields

section Words
variable {size : ℕ} {words : List ℕ}

/-- Words of one size. -/
def packWords (size : ℕ) (words : List ℕ) : ℕ := packFields (words.map fun word => (size, word))

theorem packWords_append_singleton (size : ℕ) (words : List ℕ) (word : ℕ) :
    packWords size (words ++ [word]) = packWords size words * 2 ^ size + word := by
  simp [packWords, packFields_append, packFields]

theorem packWords_lt (h : ∀ word ∈ words, word < 2 ^ size) :
    packWords size words < 2 ^ (words.length * size) := by
  have hfit : FieldsFit (words.map fun word => (size, word)) := by
    simpa [FieldsFit] using h
  simpa [packWords, Function.comp_def] using packFields_lt hfit

theorem unpackFields_packWords (h : ∀ word ∈ words, word < 2 ^ size) :
    unpackFields (List.replicate words.length size) (packWords size words) = words := by
  have hfit : FieldsFit (words.map fun word => (size, word)) := by
    simpa [FieldsFit] using h
  have hunpack := unpackFields_packFields hfit
  simpa [packWords, Function.comp_def] using hunpack

theorem zip_replicate (size : ℕ) (words : List ℕ) :
    (List.replicate words.length size).zip words = words.map fun word => (size, word) := by
  induction words with
  | nil => rfl
  | cons word words ih => simp [List.replicate_succ, ih]

theorem unpackFields_replicate_lt {size n value : ℕ} :
    ∀ word ∈ unpackFields (List.replicate n size) value, word < 2 ^ size := by
  have hfit := unpackFields_fit (List.replicate n size) value
  have hzip := zip_replicate size (unpackFields (List.replicate n size) value)
  rw [unpackFields_length, List.length_replicate] at hzip
  rw [hzip] at hfit
  exact fun word hword => hfit (size, word) (List.mem_map_of_mem hword)

theorem packWords_unpackFields (size n value : ℕ) :
    packWords size (unpackFields (List.replicate n size) value) = value % 2 ^ (n * size) := by
  have h := packFields_unpackFields (List.replicate n size) value
  have hzip := zip_replicate size (unpackFields (List.replicate n size) value)
  rw [unpackFields_length, List.length_replicate] at hzip
  rw [hzip, List.sum_replicate, smul_eq_mul] at h
  exact h

end Words
end V2IHub.Foundation
