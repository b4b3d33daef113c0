import Mathlib.Data.List.Basic

set_option relaxedAutoImplicit false
set_option autoImplicit false

/-!
# Byte sources with short reads

A source delivers its elements in chunks: one `read` returns elements of one chunk only, as many
as fit in the buffer it is given. After the last chunk every `read` either returns nothing, which
is the end of the stream, or fails. Every fragmentation of a stream into reads is the behaviour of
one of these sources.

## Main definitions

* `Reader` — a source; `Reader.bytes` is its whole stream.
* `Reader.read` — one read with a buffer of a given size.
* `Reader.readExact` — reads until the buffer is full.

## Main results

* `Reader.read_eq` — what is read is taken off the front of the stream.
* `Reader.readExact_eq` — reading `n` elements succeeds exactly when there are as many, whatever
  the chunks are.
* `Reader.readExact_append`, `Reader.readExact_of_lt` — the two cases of it.
-/

/-- A source with the given chunks. After them `failure` says whether a read fails or finds the
end of the stream. -/
structure Reader (α ε : Type*) where
  chunks : List (List α)
  failure : Option ε
  nonempty : ∀ c ∈ chunks, c ≠ []

namespace Reader

variable {α ε : Type*} {r r' : Reader α ε} {n : ℕ} {bs : List α}

/-- The stream. -/
def bytes (r : Reader α ε) : List α :=
  r.chunks.flatten

/-- The source that delivers a stream in one chunk. -/
def whole (bs : List α) : Reader α ε where
  chunks := [bs].filter (· ≠ [])
  failure := none
  nonempty := by simp

/-- The bytes of a stream that is read at once. -/
@[simp]
lemma bytes_whole (bs : List α) : (whole bs : Reader α ε).bytes = bs := by
  cases bs <;> simp [whole, bytes]

/-- One read into a buffer of `n` elements. -/
def read (r : Reader α ε) (n : ℕ) : Except ε (List α × Reader α ε) :=
  match h : r.chunks with
  | [] =>
    match r.failure with
    | none => .ok ([], r)
    | some e => .error e
  | c :: cs =>
    if hc : n < c.length then
      .ok (c.take n, { r with
        chunks := c.drop n :: cs
        nonempty := by
          intro d hd
          rcases List.mem_cons.mp hd with rfl | hd
          · simpa using hc
          · exact r.nonempty d (h ▸ List.mem_cons_of_mem _ hd) })
    else
      .ok (c, { r with
        chunks := cs
        nonempty := fun d hd => r.nonempty d (h ▸ List.mem_cons_of_mem _ hd) })

/-- What a read can do: find the end, fail at the end, or take a part of the stream. -/
inductive ReadResult (r : Reader α ε) (n : ℕ) : Except ε (List α × Reader α ε) → Prop
  | eof (hb : r.bytes = []) (hf : r.failure = none) : ReadResult r n (.ok ([], r))
  | fail {e : ε} (hb : r.bytes = []) (hf : r.failure = some e) : ReadResult r n (.error e)
  | data {bs : List α} {r' : Reader α ε} (hb : r.bytes = bs ++ r'.bytes) (hlen : bs.length ≤ n)
      (hpos : 0 < n → bs ≠ []) (hf : r'.failure = r.failure) (hne : r.bytes ≠ []) :
      ReadResult r n (.ok (bs, r'))

/-- **One read.** What is read is taken off the front of the stream. -/
theorem read_eq (r : Reader α ε) (n : ℕ) : ReadResult r n (r.read n) := by
  unfold read
  split
  · rename_i hc
    have hb : r.bytes = [] := by simp [bytes, hc]
    cases hf : r.failure with
    | none => exact .eof hb hf
    | some e => exact .fail hb hf
  · rename_i c cs hc
    have hne : c ≠ [] := r.nonempty c (by simp [hc])
    have hb : r.bytes = c ++ cs.flatten := by simp [bytes, hc]
    have hr : r.bytes ≠ [] := by simp [hb, hne]
    split
    · rename_i hlt
      refine .data ?_ (List.length_take_le _ _) (fun hpos => ?_) rfl hr
      · rw [hb]
        simp only [bytes, List.flatten_cons]
        rw [← List.append_assoc, List.take_append_drop]
      · simpa [Nat.pos_iff_ne_zero.mp hpos] using hne
    · rename_i hle
      exact .data hb (by omega) (fun _ => hne) rfl hr

/-- A successful read takes what it returns off the front of the stream. -/
lemma bytes_of_read (h : r.read n = .ok (bs, r')) :
    r.bytes = bs ++ r'.bytes ∧ bs.length ≤ n ∧ r'.failure = r.failure := by
  have hspec := r.read_eq n
  rw [h] at hspec
  cases hspec with
  | eof hb hf => simp [hb]
  | data hb hlen hpos hf hne => exact ⟨hb, hlen, hf⟩

/-- A read that returns nothing into a non-empty buffer has found the end of the stream. -/
lemma eof_of_read_nil (hn : 0 < n) (h : r.read n = .ok ([], r')) :
    r.bytes = [] ∧ r.failure = none := by
  have hspec := r.read_eq n
  rw [h] at hspec
  cases hspec with
  | eof hb hf => exact ⟨hb, hf⟩
  | data hb hlen hpos hf hne => exact absurd rfl (hpos hn)

/-- A read fails only at the end of the stream. -/
lemma failure_of_read_error {e : ε} (h : r.read n = .error e) :
    r.bytes = [] ∧ r.failure = some e := by
  have hspec := r.read_eq n
  rw [h] at hspec
  cases hspec with
  | fail hb hf => exact ⟨hb, hf⟩

/-- Reads until `n` elements are there; `eof` is the error for a stream that ends before. -/
def readExact (r : Reader α ε) (n : ℕ) (eof : ε) : Except ε (List α × Reader α ε) :=
  if n = 0 then .ok ([], r)
  else
    match r.read n with
    | .error e => .error e
    | .ok ([], _) => .error eof
    | .ok (b :: bs, r') =>
      match r'.readExact (n - (bs.length + 1)) eof with
      | .error e => .error e
      | .ok (bs', r'') => .ok (b :: bs ++ bs', r'')
termination_by n

/-- **Reading `n` elements does not depend on the chunks.** It returns the first `n` elements, or
fails if there are not as many. -/
theorem readExact_eq (r : Reader α ε) (n : ℕ) (eof : ε) :
    if n ≤ r.bytes.length then
      ∃ r', r.readExact n eof = .ok (r.bytes.take n, r') ∧ r'.bytes = r.bytes.drop n ∧
        r'.failure = r.failure
    else r.readExact n eof = .error (r.failure.getD eof) := by
  fun_induction readExact r n eof with
  | case1 r => simp
  | case2 r n hn e hread =>
    obtain ⟨hb, hf⟩ := failure_of_read_error hread
    simp [hb, hn, hf]
  | case3 r n hn r' hread =>
    obtain ⟨hb, hf⟩ := eof_of_read_nil (Nat.pos_of_ne_zero hn) hread
    simp [hb, hn, hf]
  | case4 r n hn b bs r' hread e hrec ih =>
    obtain ⟨hb, hlen, hf⟩ := bytes_of_read hread
    have hbytes : r.bytes.length = bs.length + 1 + r'.bytes.length := by simp [hb]; omega
    rw [hrec] at ih
    split at ih
    · simp at ih
    · rw [if_neg (by omega), ← hf]
      exact ih
  | case5 r n hn b bs r' hread bs' r'' hrec ih =>
    obtain ⟨hb, hlen, hf⟩ := bytes_of_read hread
    have hbytes : r.bytes.length = bs.length + 1 + r'.bytes.length := by simp [hb]; omega
    rw [hrec] at ih
    simp only [List.length_cons] at hlen
    split at ih
    · rename_i hle
      obtain ⟨t, heq, ht, htf⟩ := ih
      simp only [Except.ok.injEq, Prod.mk.injEq] at heq
      obtain ⟨rfl, rfl⟩ := heq
      rw [if_pos (by omega)]
      refine ⟨r'', ?_, ?_, htf.trans hf⟩
      · rw [hb, List.take_append, List.take_of_length_le (l := b :: bs) (by simpa using hlen)]
        simp
      · rw [hb, List.drop_append, List.drop_of_length_le (l := b :: bs) (by simpa using hlen), ht]
        simp
    · simp at ih

variable {eof : ε}

/-- What is read exactly is taken off the front of the stream. -/
lemma bytes_of_readExact (h : r.readExact n eof = .ok (bs, r')) :
    r.bytes = bs ++ r'.bytes ∧ bs.length = n := by
  have hspec := r.readExact_eq n eof
  split at hspec
  · rename_i hle
    obtain ⟨t, heq, ht, -⟩ := hspec
    rw [h, Except.ok.injEq, Prod.mk.injEq] at heq
    obtain ⟨rfl, rfl⟩ := heq
    rw [ht, List.take_append_drop]
    exact ⟨rfl, List.length_take_of_le hle⟩
  · rw [h] at hspec
    cases hspec

/-- Reading exactly the part that a stream starts with. -/
lemma readExact_append {rest : List α} (hr : r.bytes = bs ++ rest) (hn : bs.length = n) (eof : ε) :
    ∃ r', r.readExact n eof = .ok (bs, r') ∧ r'.bytes = rest ∧ r'.failure = r.failure := by
  subst hn
  have hspec := r.readExact_eq bs.length eof
  rw [if_pos (by simp [hr])] at hspec
  obtain ⟨r', heq, hb, hf⟩ := hspec
  rw [hr, List.take_left] at heq
  rw [hr, List.drop_left] at hb
  exact ⟨r', heq, hb, hf⟩

/-- Two sources with the same stream and the same end; the chunks may differ. -/
structure Same (r r' : Reader α ε) : Prop where
  bytes_eq : r.bytes = r'.bytes
  failure_eq : r.failure = r'.failure

/-- **Reading exactly does not tell sources with the same stream apart.** -/
lemma Same.readExact {s : Reader α ε} (h : Same r s) (n : ℕ) (eof : ε) :
    (∃ bs r' s', r.readExact n eof = .ok (bs, r') ∧ s.readExact n eof = .ok (bs, s') ∧
      Same r' s') ∨
    ∃ e, r.readExact n eof = .error e ∧ s.readExact n eof = .error e := by
  have hr := r.readExact_eq n eof
  have hs := s.readExact_eq n eof
  rw [← h.bytes_eq, ← h.failure_eq] at hs
  by_cases hle : n ≤ r.bytes.length
  · rw [if_pos hle] at hr hs
    obtain ⟨r', hreq, hrb, hrf⟩ := hr
    obtain ⟨s', hseq, hsb, hsf⟩ := hs
    exact .inl ⟨_, r', s', hreq, hseq, hrb.trans hsb.symm, hrf.trans hsf.symm⟩
  · rw [if_neg hle] at hr hs
    exact .inr ⟨_, hr, hs⟩

/-- Reading more than there is fails. -/
lemma readExact_of_lt (h : r.bytes.length < n) (eof : ε) :
    r.readExact n eof = .error (r.failure.getD eof) := by
  have hspec := r.readExact_eq n eof
  rwa [if_neg (by omega)] at hspec

/-- Reading exactly fails only if there is not as much. -/
lemma length_lt_of_readExact_error {e : ε} (h : r.readExact n eof = .error e) :
    r.bytes.length < n := by
  have hspec := r.readExact_eq n eof
  by_contra hle
  rw [if_pos (Nat.le_of_not_lt hle), h] at hspec
  obtain ⟨r', heq, -⟩ := hspec
  cases heq

end Reader
