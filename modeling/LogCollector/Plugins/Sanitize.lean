import LogCollector.Config.Handlers

/-!
# What sanitizing leaves of a line

`sanitize_cfg` and `sanitize_plugin` copy a line into a buffer, where they drop the spaces
of the key and trim the value, and then lower the letters of the key. Said without the
loops: the key keeps what is in brackets, and loses its white space and its capitals
elsewhere, and the value loses its white space at both ends. The result is no longer than
the line, so it has room where the line was, with the `/` that is put behind a folder, and
a line that was sanitized is left alone (`sanitized_as_specified`). The buffer is one byte
too short for one kind of line (`Overruns`).
-/

namespace LogCollector

/-! ## The specification -/

/-- How many brackets are open behind the character at `i`. -/
def depthAt (key : List UInt8) (i : Nat) : Int :=
  (key.take (i + 1)).count (byteOf '[') - (key.take (i + 1)).count (byteOf ']')

/-- A letter of a key, in lower case. -/
def lowerLetter (c : UInt8) : UInt8 := if isalpha c then tolower c else c

/-- The key without white space and capitals at depth 0. -/
def specifiedKey (key : List UInt8) : List UInt8 :=
  key.zipIdx.filterMap fun (c, i) =>
    if depthAt key i ≠ 0 then some c
    else if CStr.isspace c then none
    else some (lowerLetter c)

/-- White space is cut off at both ends, and none is left there. -/
structure Trimmed (value trimmed : List UInt8) : Prop where
  cut : ∃ before after, value = before ++ trimmed ++ after ∧
    ∀ c ∈ before ++ after, CStr.isspace c
  head : ∀ c ∈ trimmed.head?, ¬ CStr.isspace c
  last : ∀ c ∈ trimmed.getLast?, ¬ CStr.isspace c

/-- The terminator of what is copied of a line, and the one behind it, do not both fit in
the buffer. -/
def Overruns (line : CStr) : Prop :=
  ¬iscomment line ∧ ¬isblankline line ∧ byteOf ':' ∈ line.bytes ∧
    LOCALBUF_SIZE ≤ (copyRow 0 line.bytes).length + 1

instance Overruns.decidable (line : CStr) : Decidable (Overruns line) :=
  inferInstanceAs (Decidable (_ ∧ _))

/-- What a routine is to make of a line. -/
structure SanitizedAsSpecified (sanitize : List CStr → Except Fault (List CStr)) (line : CStr) :
    Prop where
  empty : iscomment line ∨ isblankline line → sanitize [line] = .ok [.empty]
  row : ∀ key value, ¬iscomment line → ¬isblankline line →
    line.bytes = key ++ byteOf ':' :: value → byteOf ':' ∉ key → specifiedKey key ≠ [] →
      ∃ out trimmed, sanitize [line] = .ok [out] ∧ Trimmed value trimmed ∧
        out.bytes = specifiedKey key ++ byteOf ':' :: trimmed
  /-- The result is no longer than the line, -/
  shorter : ∀ out, sanitize [line] = .ok [out] → out.strlen ≤ line.strlen
  /-- so what is allocated for the line has room for its key, and for its value with a `/` at
  the end, each with its terminator, -/
  folder : ∀ out key value, sanitize [line] = .ok [out] → splitRow out = some (key, value) →
    key.strlen + 1 + ((folderPath value).strlen + 1) ≤ rowAllocation line
  /-- and the result is left alone. -/
  stable : ∀ out, sanitize [line] = .ok [out] → sanitize [out] = .ok [out]

/-! ## Characters -/

section

variable {c : UInt8}

theorem not_isspace_colon : ¬ CStr.isspace (byteOf ':') := by decide

/-- White space is no bracket. -/
theorem countBracket_isspace (h : CStr.isspace c) (symbol : Int) :
    countBracket symbol c = symbol := by
  have hopen : c ≠ byteOf '[' := by
    rintro rfl
    exact absurd h (by decide)
  have hclose : c ≠ byteOf ']' := by
    rintro rfl
    exact absurd h (by decide)
  rw [countBracket, if_neg hopen, if_neg hclose]

/-- Only a capital is changed, into a small letter. -/
theorem lowerLetter_eq_or (c : UInt8) : lowerLetter c = c ∨
    isalpha c ∧ 65 ≤ c.toNat ∧ c.toNat ≤ 90 ∧ (lowerLetter c).toNat = c.toNat + 32 := by
  unfold lowerLetter tolower
  split
  next halpha =>
    split
    next hupper =>
      simp only [Bool.and_eq_true, decide_eq_true_eq, UInt8.le_iff_toNat_le] at hupper
      refine .inr ⟨halpha, hupper.1, hupper.2, ?_⟩
      rw [UInt8.toNat_add]
      have : c.toNat ≤ 90 := hupper.2
      show (c.toNat + 32) % 256 = _
      omega
    next => exact .inl rfl
  next => exact .inl rfl

theorem isalpha_eq_false_iff (c : UInt8) : isalpha c = false ↔
    ¬ (65 ≤ c.toNat ∧ c.toNat ≤ 90) ∧ ¬ (97 ≤ c.toNat ∧ c.toNat ≤ 122) := by
  rw [← Bool.not_eq_true, isalpha, Bool.or_eq_true, not_or]
  simp only [Bool.and_eq_true, decide_eq_true_eq, UInt8.le_iff_toNat_le]
  rfl

/-- What is no letter stays what it is, and nothing becomes it. -/
theorem lowerLetter_eq_iff {b : UInt8} (hb : isalpha b = false) : lowerLetter c = b ↔ c = b := by
  rcases lowerLetter_eq_or c with h | ⟨-, hle, hge, h⟩
  · rw [h]
  · rw [isalpha_eq_false_iff] at hb
    rw [← UInt8.toNat_inj, ← UInt8.toNat_inj, h]
    omega

theorem isspace_lowerLetter (c : UInt8) : CStr.isspace (lowerLetter c) = CStr.isspace c := by
  rcases lowerLetter_eq_or c with h | ⟨-, hle, hge, h⟩
  · rw [h]
  · have hfalse : ∀ b : UInt8, 32 < b.toNat → CStr.isspace b = false := by
      intro b hb
      apply Bool.eq_false_iff.mpr
      intro h
      simp only [CStr.isspace, Bool.or_eq_true, decide_eq_true_eq, Bool.and_eq_true,
        UInt8.le_iff_toNat_le] at h
      rcases h with rfl | ⟨-, h⟩
      · exact absurd hb (by decide)
      · have : b.toNat ≤ 13 := h
        omega
    rw [hfalse _ (by omega), hfalse _ (by omega)]

theorem lowerLetter_lowerLetter (c : UInt8) : lowerLetter (lowerLetter c) = lowerLetter c := by
  rcases lowerLetter_eq_or (lowerLetter c) with h | ⟨-, hle, hge, -⟩
  · exact h
  · rcases lowerLetter_eq_or c with h | ⟨-, hle', hge', h⟩
    · rw [h, h]
    · omega

/-- Letters are no brackets. -/
theorem countBracket_lowerLetter (symbol : Int) (c : UInt8) :
    countBracket symbol (lowerLetter c) = countBracket symbol c := by
  simp only [countBracket, lowerLetter_eq_iff (b := byteOf '[') (by decide),
    lowerLetter_eq_iff (b := byteOf ']') (by decide)]

end

/-! ## The key -/

/-- A key from depth `symbol` on. -/
def keyFrom : Int → List UInt8 → List UInt8
  | _, [] => []
  | symbol, c :: key =>
    let symbol := countBracket symbol c
    if symbol ≠ 0 then c :: keyFrom symbol key
    else if CStr.isspace c then keyFrom symbol key
    else lowerLetter c :: keyFrom symbol key

/-- The brackets of a prefix. -/
def depthOf (key : List UInt8) : Int := key.count (byteOf '[') - key.count (byteOf ']')

theorem depthOf_concat (before : List UInt8) (c : UInt8) :
    depthOf (before ++ [c]) = countBracket (depthOf before) c := by
  have hne : byteOf '[' ≠ byteOf ']' := by decide
  simp only [depthOf, countBracket, List.count_append, List.count_singleton]
  by_cases hopen : c = byteOf '['
  · subst hopen
    simp [hne]
    omega
  · by_cases hclose : c = byteOf ']'
    · subst hclose
      simp [hne.symm]
      omega
    · simp [hopen, hclose]

/-- Counting along the key gives the depth at each position. -/
theorem specifiedKey_eq (key : List UInt8) : specifiedKey key = keyFrom 0 key := by
  have hsuffix : ∀ (rest before : List UInt8),
      (rest.zipIdx before.length).filterMap (fun (c, i) =>
        if depthAt (before ++ rest) i ≠ 0 then some c
        else if CStr.isspace c then none
        else some (lowerLetter c)) = keyFrom (depthOf before) rest := by
    intro rest
    induction rest with
    | nil => exact fun _ => rfl
    | cons c rest ih =>
      intro before
      have hdepth : depthAt (before ++ c :: rest) before.length =
          countBracket (depthOf before) c := by
        rw [← depthOf_concat, depthAt, List.take_append, List.take_of_length_le (by omega),
          Nat.add_sub_cancel_left]
        rfl
      have hrest := ih (before ++ [c])
      rw [List.length_append, List.length_singleton, List.append_assoc, List.singleton_append,
        depthOf_concat] at hrest
      rw [List.zipIdx_cons, List.filterMap_cons, hrest, keyFrom]
      dsimp only
      rw [hdepth]
      split_ifs <;> rfl
  exact hsuffix key []

/-- Nothing but letters gets into the key. -/
theorem mem_of_mem_keyFrom {b : UInt8} (hb : isalpha b = false) {symbol : Int} {key : List UInt8}
    (h : b ∈ keyFrom symbol key) : b ∈ key := by
  induction key generalizing symbol with
  | nil => exact h
  | cons c key ih =>
    rw [keyFrom] at h
    split_ifs at h
    · rcases List.mem_cons.mp h with rfl | h
      · exact List.mem_cons_self
      · exact List.mem_cons_of_mem c (ih h)
    · exact List.mem_cons_of_mem c (ih h)
    · rcases List.mem_cons.mp h with heq | h
      · exact (lowerLetter_eq_iff hb).mp heq.symm ▸ List.mem_cons_self
      · exact List.mem_cons_of_mem c (ih h)

/-- A key from which everything was dropped stays. -/
theorem keyFrom_keyFrom (symbol : Int) (key : List UInt8) :
    keyFrom symbol (keyFrom symbol key) = keyFrom symbol key := by
  induction key generalizing symbol with
  | nil => rfl
  | cons c key ih =>
    rw [keyFrom]
    split_ifs with hdepth hspace
    · rw [keyFrom]
      rw [if_pos hdepth, ih]
    · rw [countBracket_isspace hspace, ih]
    · rw [keyFrom]
      rw [countBracket_lowerLetter, if_neg hdepth, isspace_lowerLetter, if_neg hspace,
        lowerLetter_lowerLetter, ih]

/-- The key begins with the first character of the line that is not white space. -/
theorem head?_keyFrom (key : List UInt8) :
    match key.dropWhile CStr.isspace with
    | [] => keyFrom 0 key = []
    | c :: _ => (keyFrom 0 key).head? = some c ∨ (keyFrom 0 key).head? = some (lowerLetter c) := by
  induction key with
  | nil => exact rfl
  | cons b key ih =>
    rw [List.dropWhile_cons, keyFrom]
    split_ifs with hspace hdepth
    · exact absurd (countBracket_isspace hspace 0) hdepth
    · rw [countBracket_isspace hspace]
      exact ih
    · exact .inl rfl
    · exact .inr rfl

/-! ## The loops -/

variable {key value : List UInt8}

/-- The spaces dropped and the letters lowered, one after the other. -/
theorem lowerKey_eraseSpaces (hkey : byteOf ':' ∉ key) (symbol : Int) (value : List UInt8) :
    lowerKey symbol (eraseSpaces symbol (key ++ byteOf ':' :: value)) =
      keyFrom symbol key ++ byteOf ':' :: trimSpaces value := by
  induction key generalizing symbol with
  | nil =>
    rw [List.nil_append, eraseSpaces, if_pos rfl, lowerKey, if_pos rfl]
    rfl
  | cons c key ih =>
    obtain ⟨hc, hkey⟩ := List.ne_and_not_mem_of_not_mem_cons hkey
    have hne : c ≠ byteOf ':' := Ne.symm hc
    rw [List.cons_append, eraseSpaces, if_neg hne, keyFrom]
    by_cases hdepth : countBracket symbol c = 0
    · by_cases hspace : CStr.isspace c
      · have hsymbol : symbol = 0 := countBracket_isspace hspace symbol ▸ hdepth
        rw [if_pos ⟨hdepth, hspace⟩, if_neg (not_not.mpr hdepth), if_pos hspace, hdepth, ← ih hkey,
          hsymbol]
      · rw [if_neg fun h => hspace h.2, if_neg (not_not.mpr hdepth), if_neg hspace, lowerKey,
          if_neg hne, ih hkey, List.cons_append, lowerLetter]
        simp only [hdepth, true_and]
    · rw [if_neg fun h => hdepth h.1, if_pos hdepth, lowerKey, if_neg hne, ih hkey,
        if_neg fun h => hdepth h.1, List.cons_append]

/-- What is left of a line is no longer than what is copied of it. -/
theorem length_keyFrom_le_copyRow (hkey : byteOf ':' ∉ key) (symbol : Int) (value : List UInt8) :
    (keyFrom symbol key).length + (value.length + 1) ≤
      (copyRow symbol (key ++ byteOf ':' :: value)).length := by
  induction key generalizing symbol with
  | nil =>
    rw [List.nil_append, copyRow, if_pos rfl, keyFrom, List.length_nil, List.length_cons,
      Nat.zero_add]
  | cons c key ih =>
    obtain ⟨hc, hkey⟩ := not_or.mp (mt List.mem_cons.mpr hkey)
    have hne : c ≠ byteOf ':' := Ne.symm hc
    have hrest := ih hkey (countBracket symbol c)
    rw [List.cons_append, copyRow, if_neg hne, keyFrom]
    dsimp only
    by_cases hdepth : countBracket symbol c = 0
    · by_cases hspace : CStr.isspace c
      · rw [if_neg (not_not.mpr hdepth), if_pos hspace, if_pos ⟨hdepth, hspace⟩]
        exact hrest
      · rw [if_neg (not_not.mpr hdepth), if_neg hspace, if_neg fun h => hspace h.2,
          List.length_cons, List.length_cons]
        omega
    · rw [if_pos hdepth, if_neg fun h => hdepth h.1, List.length_cons, List.length_cons]
      omega

theorem length_copyRow_le (symbol : Int) (row : List UInt8) :
    (copyRow symbol row).length ≤ row.length := by
  induction row generalizing symbol with
  | nil => exact Nat.le_refl _
  | cons c row ih =>
    have := ih (countBracket symbol c)
    unfold copyRow
    dsimp only
    split_ifs
    · exact Nat.le_refl _
    · exact Nat.le_succ_of_le this
    · exact Nat.succ_le_succ this

theorem mem_of_mem_trimSpaces {b : UInt8} (h : b ∈ trimSpaces value) : b ∈ value := by
  rw [trimSpaces, List.mem_reverse] at h
  have hreverse := (List.dropWhile_sublist _).mem h
  exact (List.dropWhile_sublist _).mem (List.mem_reverse.mp hreverse)

theorem mem_of_mem_eraseSpaces {b : UInt8} {symbol : Int} {row : List UInt8}
    (h : b ∈ eraseSpaces symbol row) : b ∈ row := by
  induction row generalizing symbol with
  | nil => exact h
  | cons c row ih =>
    unfold eraseSpaces at h
    dsimp only at h
    split_ifs at h
    · rcases List.mem_cons.mp h with rfl | h
      · exact List.mem_cons_self
      · exact List.mem_cons_of_mem c (mem_of_mem_trimSpaces h)
    · exact List.mem_cons_of_mem c (ih h)
    · rcases List.mem_cons.mp h with rfl | h
      · exact List.mem_cons_self
      · exact List.mem_cons_of_mem c (ih h)

/-- Lower case makes no colon. -/
theorem head?_lowerKey (symbol : Int) (row : List UInt8) :
    (lowerKey symbol row).head? = some (byteOf ':') ↔ row.head? = some (byteOf ':') := by
  cases row with
  | nil => exact Iff.rfl
  | cons c row =>
    rw [lowerKey]
    split_ifs with hcolon hletter
    · exact Iff.rfl
    · have hlower : lowerLetter c = tolower c := if_pos hletter.2
      rw [List.head?_cons, List.head?_cons, Option.some.injEq, Option.some.injEq, ← hlower]
      exact lowerLetter_eq_iff (by decide)
    · exact Iff.rfl

/-! ## The value -/

theorem dropWhile_isspace_split (s : List UInt8) :
    ∃ before, s = before ++ s.dropWhile CStr.isspace ∧ ∀ c ∈ before, CStr.isspace c :=
  ⟨s.takeWhile CStr.isspace, List.takeWhile_append_dropWhile.symm,
    fun _ h => List.mem_takeWhile_imp h⟩

theorem head?_dropWhile_isspace {s : List UInt8} {c : UInt8}
    (h : (s.dropWhile CStr.isspace).head? = some c) : ¬ CStr.isspace c := by
  have := List.head?_dropWhile_not CStr.isspace s
  rw [h] at this
  simpa using this

/-- Trimming does what it should. -/
theorem trimmed_trimSpaces (value : List UInt8) : Trimmed value (trimSpaces value) := by
  obtain ⟨before, hbefore, hspaces⟩ := dropWhile_isspace_split value
  obtain ⟨after, hafter, hspaces'⟩ :=
    dropWhile_isspace_split (value.dropWhile CStr.isspace).reverse
  have hsplit : value.dropWhile CStr.isspace = trimSpaces value ++ after.reverse := by
    rw [trimSpaces, ← List.reverse_append, ← hafter, List.reverse_reverse]
  constructor
  · refine ⟨before, after.reverse, ?_, ?_⟩
    · rw [List.append_assoc, ← hsplit]
      exact hbefore
    · intro c hc
      rcases List.mem_append.mp hc with hc | hc
      · exact hspaces c hc
      · exact hspaces' c (List.mem_reverse.mp hc)
  · intro c hc
    refine head?_dropWhile_isspace (s := value) ?_
    rw [hsplit, List.head?_append, Option.mem_def.mp hc]
    rfl
  · intro c hc
    rw [trimSpaces, List.getLast?_reverse] at hc
    exact head?_dropWhile_isspace hc

/-- A value that is trimmed stays. -/
theorem trimSpaces_trimSpaces (value : List UInt8) :
    trimSpaces (trimSpaces value) = trimSpaces value := by
  have htrimmed := trimmed_trimSpaces value
  have hkeeps : ∀ s : List UInt8, (∀ c ∈ s.head?, ¬ CStr.isspace c) →
      s.dropWhile CStr.isspace = s := by
    intro s hs
    cases s with
    | nil => rfl
    | cons c s => exact List.dropWhile_cons_of_neg (hs c rfl)
  generalize trimSpaces value = trimmed at htrimmed
  have hlast : ∀ c ∈ trimmed.reverse.head?, ¬ CStr.isspace c := by
    intro c hc
    rw [List.head?_reverse] at hc
    exact htrimmed.last c hc
  rw [trimSpaces, hkeeps trimmed htrimmed.head, hkeeps _ hlast, List.reverse_reverse]

theorem length_trimSpaces_le (value : List UInt8) : (trimSpaces value).length ≤ value.length := by
  obtain ⟨before, after, hsplit, -⟩ := (trimmed_trimSpaces value).cut
  have hlength := congrArg List.length hsplit
  simp only [List.length_append] at hlength
  omega

/-! ## Lines -/

section

variable {line : CStr}

theorem sanitizeRow_empty (h : iscomment line ∨ isblankline line) :
    sanitizeRow line = .ok .empty := by
  have hblank : (if isblankline (if iscomment line then .empty else line) then CStr.empty
      else if iscomment line then .empty else line) = .empty := by
    rcases h with h | h
    · rw [if_pos h]
      exact ite_self _
    · by_cases hcomment : iscomment line
      · rw [if_pos hcomment]
        exact ite_self _
      · rw [if_neg hcomment, if_pos h]
  unfold sanitizeRow
  dsimp only
  rw [hblank, if_pos rfl]

theorem ne_empty_of_not_blank (h : ¬ isblankline line) : line ≠ .empty := by
  rintro rfl
  exact h rfl

/-- A line that is neither blank nor a comment goes through the checks as it is. -/
theorem sanitizeRow_text (hcomment : ¬ iscomment line) (hblank : ¬ isblankline line) :
    sanitizeRow line =
      if byteOf ':' ∉ line.bytes then .error .exit
      else if LOCALBUF_SIZE ≤ (copyRow 0 line.bytes).length + 1 then .error .badAccess
      else if (CStr.ofBytes (eraseSpaces 0 line.bytes)).bytes.head? = some (byteOf ':') then
        .error .exit
      else .ok (.ofBytes (lowerKey 0 (CStr.ofBytes (eraseSpaces 0 line.bytes)).bytes)) := by
  unfold sanitizeRow
  rw [if_neg hcomment]
  dsimp only
  rw [if_neg hblank, if_neg (ne_empty_of_not_blank hblank)]

/-- A line with a key: it is left with it, or the key was all white space. -/
theorem sanitizeRow_keyed (hcomment : ¬ iscomment line) (hblank : ¬ isblankline line)
    (hline : line.bytes = key ++ byteOf ':' :: value) (hkey : byteOf ':' ∉ key)
    (hcopied : ¬ LOCALBUF_SIZE ≤ (copyRow 0 line.bytes).length + 1) :
    ∃ out : CStr, out.bytes = keyFrom 0 key ++ byteOf ':' :: trimSpaces value ∧
      sanitizeRow line = if keyFrom 0 key = [] then .error .exit else .ok out := by
  have hcolon : byteOf ':' ∈ line.bytes :=
    hline ▸ List.mem_append_right key List.mem_cons_self
  have herased : (CStr.ofBytes (eraseSpaces 0 line.bytes)).bytes = eraseSpaces 0 line.bytes :=
    CStr.bytes_ofBytes fun h => line.nulFree (mem_of_mem_eraseSpaces h)
  have hlowered : lowerKey 0 (eraseSpaces 0 line.bytes) =
      keyFrom 0 key ++ byteOf ':' :: trimSpaces value := by
    rw [hline, lowerKey_eraseSpaces hkey]
  have hnul : (0 : UInt8) ∉ keyFrom 0 key ++ byteOf ':' :: trimSpaces value := by
    intro h
    refine line.nulFree (hline ▸ ?_)
    rcases List.mem_append.mp h with h | h
    · exact List.mem_append_left _ (mem_of_mem_keyFrom (by decide) h)
    · rcases List.mem_cons.mp h with h | h
      · exact absurd h (by decide)
      · exact List.mem_append_right _ (List.mem_cons_of_mem _ (mem_of_mem_trimSpaces h))
  have hhead : (eraseSpaces 0 line.bytes).head? = some (byteOf ':') ↔ keyFrom 0 key = [] := by
    rw [← head?_lowerKey 0, hlowered]
    cases hlow : keyFrom 0 key with
    | nil => exact iff_of_true rfl rfl
    | cons c rest =>
      refine iff_of_false (fun h => hkey ?_) (List.cons_ne_nil c rest)
      have hmem : byteOf ':' ∈ keyFrom 0 key := by
        rw [hlow]
        exact Option.some.inj h ▸ List.mem_cons_self
      exact mem_of_mem_keyFrom (by decide) hmem
  refine ⟨⟨_, hnul⟩, rfl, ?_⟩
  rw [sanitizeRow_text hcomment hblank, if_neg (not_not.mpr hcolon), if_neg hcopied, herased,
    hlowered]
  simp only [hhead]
  congr 2
  exact CStr.ext (CStr.bytes_ofBytes hnul)

theorem iscomment_iff {c : UInt8} {rest : List UInt8}
    (h : line.bytes.dropWhile CStr.isspace = c :: rest) :
    iscomment line ↔ c = byteOf '!' ∨ c = byteOf '#' := by
  rw [iscomment, h]
  simp only [Bool.or_eq_true, decide_eq_true_eq]

/-- What a key leaves of a line is no comment. -/
theorem not_iscomment_of_keyFrom {out : CStr} (hcomment : ¬ iscomment line)
    (hline : line.bytes = key ++ byteOf ':' :: value) (hkey : keyFrom 0 key ≠ [])
    {rest : List UInt8} (hout : out.bytes = keyFrom 0 key ++ rest) : ¬ iscomment out := by
  have hhead := head?_keyFrom key
  cases hfirst : key.dropWhile CStr.isspace with
  | nil =>
    rw [hfirst] at hhead
    exact absurd hhead hkey
  | cons c tail =>
    rw [hfirst] at hhead
    have hspace : ¬ CStr.isspace c := head?_dropWhile_isspace (s := key) (by rw [hfirst]; rfl)
    have hlinehead : line.bytes.dropWhile CStr.isspace = c :: (tail ++ byteOf ':' :: value) := by
      rw [hline, List.dropWhile_append, hfirst]
      rfl
    rw [iscomment_iff hlinehead] at hcomment
    obtain ⟨b, hb, hspace', hplain⟩ : ∃ b, (keyFrom 0 key).head? = some b ∧ ¬ CStr.isspace b ∧
        ¬ (b = byteOf '!' ∨ b = byteOf '#') := by
      rcases hhead with hhead | hhead
      · exact ⟨c, hhead, hspace, hcomment⟩
      · refine ⟨lowerLetter c, hhead, by rwa [isspace_lowerLetter], ?_⟩
        rwa [lowerLetter_eq_iff (by decide), lowerLetter_eq_iff (by decide)]
    obtain ⟨tail', htail⟩ := List.head?_eq_some_iff.mp hb
    have houthead : out.bytes.dropWhile CStr.isspace = b :: (tail' ++ rest) := by
      rw [hout, htail, List.cons_append, List.dropWhile_cons_of_neg hspace']
    rwa [iscomment_iff houthead]

theorem not_isblankline_of_colon {out : CStr} (h : byteOf ':' ∈ out.bytes) : ¬ isblankline out := by
  intro hblank
  exact not_isspace_colon (List.all_eq_true.mp hblank _ h)

/-- Sanitizing leaves a line empty or with a `:`. -/
theorem colon_of_sanitizeRow {out : CStr} (h : sanitizeRow line = .ok out) :
    out = .empty ∨ byteOf ':' ∈ out.bytes := by
  by_cases hempty : iscomment line ∨ isblankline line
  · rw [sanitizeRow_empty hempty] at h
    cases h
    exact .inl rfl
  obtain ⟨hcomment, hblank⟩ := not_or.mp hempty
  by_cases hcolon : byteOf ':' ∈ line.bytes
  case neg =>
    rw [sanitizeRow_text hcomment hblank, if_pos hcolon] at h
    cases h
  case pos =>
    by_cases hcopied : LOCALBUF_SIZE ≤ (copyRow 0 line.bytes).length + 1
    case pos =>
      rw [sanitizeRow_text hcomment hblank, if_neg (not_not.mpr hcolon), if_pos hcopied] at h
      cases h
    case neg =>
      obtain ⟨key, value, hline, hkey⟩ := List.eq_append_cons_of_mem hcolon
      obtain ⟨left, hleft, hrow⟩ := sanitizeRow_keyed hcomment hblank hline hkey hcopied
      rw [hrow] at h
      split at h
      · cases h
      · obtain rfl := Except.ok.inj h
        exact .inr (hleft ▸ List.mem_append_right _ List.mem_cons_self)

/-- Sanitizing leaves a shorter line, which it then leaves alone. -/
theorem sanitizeRow_stable (hroom : ¬Overruns line) {out : CStr}
    (h : sanitizeRow line = .ok out) : out.strlen ≤ line.strlen ∧ sanitizeRow out = .ok out := by
  by_cases hempty : iscomment line ∨ isblankline line
  · rw [sanitizeRow_empty hempty] at h
    cases h
    exact ⟨Nat.zero_le _, sanitizeRow_empty (.inr rfl)⟩
  obtain ⟨hcomment, hblank⟩ := not_or.mp hempty
  by_cases hcolon : byteOf ':' ∈ line.bytes
  case neg =>
    rw [sanitizeRow_text hcomment hblank, if_pos hcolon] at h
    cases h
  case pos =>
    have hcopied : ¬LOCALBUF_SIZE ≤ (copyRow 0 line.bytes).length + 1 := fun hle =>
      hroom ⟨hcomment, hblank, hcolon, hle⟩
    obtain ⟨key, value, hline, hkey⟩ := List.eq_append_cons_of_mem hcolon
    obtain ⟨left, hleft, hrow⟩ := sanitizeRow_keyed hcomment hblank hline hkey hcopied
    rw [hrow] at h
    by_cases hnone : keyFrom 0 key = []
    · rw [if_pos hnone] at h
      cases h
    rw [if_neg hnone] at h
    obtain rfl := Except.ok.inj h
    have hshort : left.strlen ≤ (copyRow 0 line.bytes).length := by
      have hcut := length_keyFrom_le_copyRow hkey 0 value
      have htrim := length_trimSpaces_le value
      rw [CStr.strlen, hleft, hline, List.length_append, List.length_cons]
      omega
    have hkey' : byteOf ':' ∉ keyFrom 0 key := fun hmem =>
      hkey (mem_of_mem_keyFrom (by decide) hmem)
    have hcolon' : byteOf ':' ∈ left.bytes :=
      hleft ▸ List.mem_append_right _ List.mem_cons_self
    have hagain : ¬LOCALBUF_SIZE ≤ (copyRow 0 left.bytes).length + 1 := by
      have hcopy := length_copyRow_le 0 left.bytes
      rw [CStr.strlen] at hshort
      omega
    obtain ⟨again, hbytes, hrow'⟩ := sanitizeRow_keyed
      (not_iscomment_of_keyFrom hcomment hline hnone hleft) (not_isblankline_of_colon hcolon')
      hleft hkey' hagain
    rw [keyFrom_keyFrom, trimSpaces_trimSpaces, ← hleft] at hbytes
    rw [keyFrom_keyFrom, if_neg hnone, CStr.ext hbytes] at hrow'
    exact ⟨hshort.trans (length_copyRow_le 0 line.bytes), hrow'⟩

/-- A row is its key, the `:` and its value. -/
theorem strlen_of_splitRow {row key value : CStr} (h : splitRow row = some (key, value)) :
    key.strlen + 1 + value.strlen = row.strlen := by
  unfold splitRow at h
  split at h
  · next hcolon =>
    cases h
    have hkey : (CStr.ofBytes (row.bytes.takeWhile (· ≠ byteOf ':'))).bytes =
        row.bytes.takeWhile (· ≠ byteOf ':') :=
      CStr.bytes_ofBytes fun h => row.nulFree ((List.takeWhile_sublist _).mem h)
    have hvalue : (CStr.ofBytes (row.bytes.dropWhile (· ≠ byteOf ':')).tail).bytes =
        (row.bytes.dropWhile (· ≠ byteOf ':')).tail :=
      CStr.bytes_ofBytes fun h =>
        row.nulFree ((List.dropWhile_sublist _).mem (List.mem_of_mem_tail h))
    have hne : row.bytes.dropWhile (· ≠ byteOf ':') ≠ [] := by
      intro hnil
      have hall := List.dropWhile_eq_nil_iff.mp hnil (byteOf ':') hcolon
      exact of_decide_eq_true hall rfl
    have hlength := congrArg List.length
      (List.takeWhile_append_dropWhile (p := (· ≠ byteOf ':')) (l := row.bytes))
    have hpos := List.length_pos_iff.mpr hne
    rw [List.length_append] at hlength
    rw [CStr.strlen, CStr.strlen, CStr.strlen, hkey, hvalue, List.length_tail]
    omega
  · cases h

/-- A folder has at most the `/` more than its value. -/
theorem strlen_folderPath_le (value : CStr) : (folderPath value).strlen ≤ value.strlen + 1 := by
  unfold folderPath
  split
  · exact Nat.le_succ _
  · rw [CStr.strlen, CStr.bytes_append, List.length_append]
    exact Nat.le_refl _

end

/-- Both routines do to one line what a round of theirs does. -/
theorem sanitize_singleton {sanitize : List CStr → Except Fault (List CStr)}
    (hsanitize : sanitize = sanitizeCfg ∨ sanitize = sanitizePlugin) (row : CStr) :
    sanitize [row] = (sanitizeRow row).map fun out => [out] := by
  have hround : [row].mapM sanitizeRow = (sanitizeRow row).map fun out => [out] := by
    rw [List.mapM_cons]
    cases sanitizeRow row <;> rfl
  rcases hsanitize with rfl | rfl
  · exact hround
  · exact hround

/-- SANITIZING A LINE does what is specified, in both routines: of every line that does not
overrun the buffer, and where the key is not all white space. -/
theorem sanitized_as_specified {sanitize : List CStr → Except Fault (List CStr)}
    (hsanitize : sanitize = sanitizeCfg ∨ sanitize = sanitizePlugin) {line : CStr}
    (hroom : ¬Overruns line) : SanitizedAsSpecified sanitize line := by
  have hone := sanitize_singleton hsanitize
  have hstable {out : CStr} (h : sanitize [line] = .ok [out]) :
      out.strlen ≤ line.strlen ∧ sanitize [out] = .ok [out] := by
    rw [hone] at h
    cases hrow : sanitizeRow line with
    | error fault =>
      rw [hrow] at h
      cases h
    | ok left =>
      rw [hrow] at h
      cases h
      obtain ⟨hshort, hagain⟩ := sanitizeRow_stable hroom hrow
      exact ⟨hshort, by rw [hone, hagain]; rfl⟩
  constructor
  · intro h
    rw [hone, sanitizeRow_empty h]
    rfl
  · intro key value hcomment hblank hline hkey hnone
    have hcolon : byteOf ':' ∈ line.bytes :=
      hline ▸ List.mem_append_right key List.mem_cons_self
    obtain ⟨out, hout, hrow⟩ := sanitizeRow_keyed hcomment hblank hline hkey fun hle =>
      hroom ⟨hcomment, hblank, hcolon, hle⟩
    rw [specifiedKey_eq] at hnone ⊢
    refine ⟨out, trimSpaces value, ?_, trimmed_trimSpaces value, hout⟩
    rw [hone, hrow, if_neg hnone]
    rfl
  · exact fun out h => (hstable h).1
  · intro out key value h hsplit
    have hshort := (hstable h).1
    have hrow := strlen_of_splitRow hsplit
    have hfolder := strlen_folderPath_le value
    rw [rowAllocation]
    omega
  · exact fun out h => (hstable h).2

/-- White space and capitals, in and out of brackets. -/
theorem sanitized_as_specified_mixed :
    SanitizedAsSpecified sanitizeCfg (.lit " Plugin_File [ A b ] :  a b:C ") :=
  sanitized_as_specified (.inl rfl) (by decide)

/-- A line of the largest length that is read, of which nothing is dropped. -/
def longLine : CStr where
  bytes := 97 :: byteOf ':' :: List.replicate 10237 98
  nulFree h := by
    rcases List.mem_cons.mp h with h | h
    · exact absurd h (by decide)
    · rcases List.mem_cons.mp h with h | h
      · exact absurd h (by decide)
      · exact absurd (List.eq_of_mem_replicate h) (by decide)

/-- Two kinds of lines are not sanitized. A key of white space ends the program, though there
is something before the colon, and a line that fills the buffer overruns it. -/
theorem lines_not_sanitized :
    (¬iscomment (.lit " :v") ∧ ¬isblankline (.lit " :v") ∧
      (CStr.lit " :v").bytes = [32] ++ byteOf ':' :: [118] ∧
      ¬(∃ out, sanitizeCfg [.lit " :v"] = .ok [out]) ∧
      ¬∃ out, sanitizePlugin [.lit " :v"] = .ok [out]) ∧
    longLine.strlen < LOCALBUF_SIZE ∧ Overruns longLine ∧
      ¬SanitizedAsSpecified sanitizeCfg longLine ∧
      ¬SanitizedAsSpecified sanitizePlugin longLine := by
  have hcfg : sanitizeCfg [.lit " :v"] = .error .exit := rfl
  have hplugin : sanitizePlugin [.lit " :v"] = .error .exit := rfl
  have hcomment : ¬iscomment longLine := by
    have hhead : longLine.bytes.dropWhile CStr.isspace =
        97 :: byteOf ':' :: List.replicate 10237 98 := List.dropWhile_cons_of_neg (by decide)
    rw [iscomment_iff hhead]
    decide
  have hblank : ¬isblankline longLine := fun h =>
    absurd (List.all_eq_true.mp h 97 List.mem_cons_self) (by decide)
  have hcolon : byteOf ':' ∈ longLine.bytes := List.mem_cons_of_mem _ List.mem_cons_self
  have hcopy : copyRow 0 longLine.bytes = longLine.bytes := rfl
  have hlength : longLine.bytes.length = 10239 := by
    rw [longLine, List.length_cons, List.length_cons, List.length_replicate]
  have hfull : LOCALBUF_SIZE ≤ (copyRow 0 longLine.bytes).length + 1 := by
    rw [hcopy, hlength]
    exact Nat.le_refl _
  have herror : sanitizeRow longLine = .error .badAccess := by
    rw [sanitizeRow_text hcomment hblank, if_neg (not_not.mpr hcolon), if_pos hfull]
  have hnot {sanitize : List CStr → Except Fault (List CStr)}
      (hsanitize : sanitize = sanitizeCfg ∨ sanitize = sanitizePlugin) :
      ¬SanitizedAsSpecified sanitize longLine := by
    intro h
    obtain ⟨out, _, hout, -⟩ := h.row [97] (List.replicate 10237 98) hcomment hblank rfl (by decide)
      (by decide)
    rw [sanitize_singleton hsanitize, herror] at hout
    cases hout
  refine ⟨⟨by decide, by decide, rfl, ?_, ?_⟩, ?_, ⟨hcomment, hblank, hcolon, hfull⟩,
    hnot (.inl rfl), hnot (.inr rfl)⟩
  · rintro ⟨out, h⟩
    rw [hcfg] at h
    cases h
  · rintro ⟨out, h⟩
    rw [hplugin] at h
    cases h
  · rw [CStr.strlen, hlength]
    decide

end LogCollector
