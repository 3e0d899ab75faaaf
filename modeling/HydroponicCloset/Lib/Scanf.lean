import Mathlib.Data.List.TakeWhile
import Mathlib.Tactic.Common

/-!
# Formatted input

The part of the C standard's `scanf` family that a format of ordinary
characters, white space and `%s` needs.  `scanf` runs the directives over the
input: an ordinary character must be the next one, white space in the format
skips any amount of white space, and `%s` skips white space and then takes the
longest run of other characters, which must not be empty.  It stops at the
first directive that fails.  The result is the return value, which is `EOF` when
the input ends before the first conversion, and the strings that were stored.

`scanf_str_token` and `scanf_chars` are the two steps a round trip is made of.
`Scans` is the language of a format by itself: the inputs that pass all its directives.
`scanf_stored` says what can be known of a result without knowing the format:
the return value counts the strings stored, and these are cut from the input.
A format that ends in a conversion makes all its conversions on the inputs in its
language (`scanf_count_iff`), and what a conversion stores is a token of the part of the
format up to it (`scanf_getElem?_iff`).
-/

namespace Scanf

/-- `isspace` in the C locale. -/
def isSpace (b : UInt8) : Bool :=
  b = 0x20 || (0x09 ≤ b && b ≤ 0x0d)

/-- White space, a byte that must match, or `%s`. -/
inductive Directive
  | space
  | char (b : UInt8)
  | str
  deriving DecidableEq

/-- The directives for a literal text. -/
def chars (s : List UInt8) : List Directive := s.map .char

/-- The return value of a scan that ran out of input. -/
def inputFailure (stored : List (List UInt8)) : Int :=
  if stored = [] then -1 else stored.length

/-- Run a format over an input, `stored` being the strings stored before. -/
def scanf (stored : List (List UInt8)) :
    List Directive → List UInt8 → Int × List (List UInt8)
  | [], _ => (stored.length, stored)
  | .space :: format, input => scanf stored format (input.dropWhile isSpace)
  | .char b :: format, input =>
      match input with
      | [] => (inputFailure stored, stored)
      | v :: rest => if v = b then scanf stored format rest else (stored.length, stored)
  | .str :: format, input =>
      match input.dropWhile isSpace with
      | [] => (inputFailure stored, stored)
      | rest@(_ :: _) =>
          scanf (stored ++ [rest.takeWhile (!isSpace ·)]) format (rest.dropWhile (!isSpace ·))

/-- What `%s` can store: a non-empty string without white space. -/
structure Token (s : List UInt8) : Prop where
  ne_nil : s ≠ []
  noSpace : ∀ b ∈ s, isSpace b = false

instance (s : List UInt8) : Decidable (Token s) :=
  decidable_of_iff (s ≠ [] ∧ (s.all fun b => !isSpace b) = true)
    ⟨fun h => ⟨h.1, by simpa using h.2⟩, fun h => ⟨h.ne_nil, by simpa using h.noSpace⟩⟩

variable {stored : List (List UInt8)} {format : List Directive} {input : List UInt8}

theorem Token.dropWhile {s : List UInt8} (h : Token s) (rest : List UInt8) :
    (s ++ rest).dropWhile isSpace = s ++ rest := by
  cases s with
  | nil => exact absurd rfl h.ne_nil
  | cons b tail => simp [h.noSpace b (List.mem_cons_self ..)]

theorem scanf_chars (s rest : List UInt8) :
    scanf stored (chars s ++ format) (s ++ rest) = scanf stored format rest := by
  induction s with
  | nil => rfl
  | cons b tail ih =>
      rw [chars, List.map_cons, List.cons_append, List.cons_append, scanf, if_pos rfl]
      exact ih

/-- A space in the format before a token skips one separating blank. -/
theorem scanf_space_token {s : List UInt8} (h : Token s) (rest : List UInt8) :
    scanf stored (.space :: format) (0x20 :: s ++ rest) = scanf stored format (s ++ rest) := by
  rw [scanf, List.cons_append, List.dropWhile_cons, if_pos (by decide), h.dropWhile]

/-- `%s` takes a token that ends at white space or at the end of the input. -/
theorem scanf_str_token {s : List UInt8} (h : Token s) {rest : List UInt8}
    (hrest : ∀ b tail, rest = b :: tail → isSpace b = true) :
    scanf stored (.str :: format) (s ++ rest) = scanf (stored ++ [s]) format rest := by
  have htake : (s ++ rest).takeWhile (!isSpace ·) = s := by
    rw [List.takeWhile_append_of_pos (by simpa using h.noSpace)]
    cases rest with
    | nil => simp
    | cons b tail => simp [hrest b tail rfl]
  have hdrop : (s ++ rest).dropWhile (!isSpace ·) = rest := by
    rw [List.dropWhile_append_of_pos (by simpa using h.noSpace)]
    cases rest with
    | nil => simp
    | cons b tail => simp [hrest b tail rfl]
  rw [scanf, h.dropWhile]
  cases s with
  | nil => exact absurd rfl h.ne_nil
  | cons b tail =>
      simp only [List.cons_append] at htake hdrop ⊢
      rw [htake, hdrop]

/-! ## The language of a format -/

/-- The input does not begin with a byte that is white space, or one that is not. -/
def Begins (space : Bool) (input : List UInt8) : Prop :=
  ∀ b tail, input = b :: tail → isSpace b = space

/-- Only white space. -/
def Spaces (w : List UInt8) : Prop := ∀ b ∈ w, isSpace b = true

/-- The input passes the format, which stores the tokens. -/
inductive Scans : List Directive → List UInt8 → List (List UInt8) → Prop
  | done (input : List UInt8) : Scans [] input []
  | space {w rest tokens format} (hw : Spaces w) (hrest : Begins false rest)
      (h : Scans format rest tokens) : Scans (.space :: format) (w ++ rest) tokens
  | char {b rest tokens format} (h : Scans format rest tokens) :
      Scans (.char b :: format) (b :: rest) tokens
  | str {w s rest tokens format} (hw : Spaces w) (hs : Token s) (hrest : Begins true rest)
      (h : Scans format rest tokens) : Scans (.str :: format) (w ++ (s ++ rest)) (s :: tokens)

theorem Token.begins {s : List UInt8} (h : Token s) (rest : List UInt8) :
    Begins false (s ++ rest) := by
  cases s with
  | nil => exact absurd rfl h.ne_nil
  | cons b tail =>
      rintro b' tail' heq
      obtain rfl : b = b' := (List.cons.inj heq).1
      exact h.noSpace b (List.mem_cons_self ..)

theorem dropWhile_spaces {w rest : List UInt8} (hw : Spaces w) (hrest : Begins false rest) :
    (w ++ rest).dropWhile isSpace = rest := by
  rw [List.dropWhile_append_of_pos hw]
  cases rest with
  | nil => rfl
  | cons b tail => rw [List.dropWhile_cons, hrest b tail rfl, if_neg (by decide)]

theorem begins_dropWhile (input : List UInt8) : Begins false (input.dropWhile isSpace) := by
  intro b tail heq
  have hhead := List.head?_dropWhile_not isSpace input
  rw [heq] at hhead
  simpa using hhead

theorem spaces_takeWhile (input : List UInt8) : Spaces (input.takeWhile isSpace) :=
  fun _ hb => List.mem_takeWhile_imp hb

/-- What `%s` takes is a token. -/
theorem token_takeWhile {b : UInt8} {tail : List UInt8} (hbegins : Begins false input)
    (heq : input = b :: tail) :
    Token ((b :: tail).takeWhile (!isSpace ·)) ∧
      Begins true ((b :: tail).dropWhile (!isSpace ·)) := by
  have hb : isSpace b = false := hbegins b tail heq
  refine ⟨⟨?_, ?_⟩, ?_⟩
  · rw [List.takeWhile_cons, hb]
    simp
  · intro v hv
    simpa using List.mem_takeWhile_imp hv
  · intro v rest hv
    have hhead := List.head?_dropWhile_not (!isSpace ·) (b :: tail)
    rw [hv] at hhead
    simpa using hhead

/-- What `%s` finds: no token, or one behind some white space. -/
theorem scanf_str_cases (stored : List (List UInt8)) (format : List Directive)
    (input : List UInt8) :
    scanf stored (.str :: format) input = (inputFailure stored, stored) ∨
      ∃ w s rest, input = w ++ (s ++ rest) ∧ Spaces w ∧ Token s ∧ Begins true rest ∧
        scanf stored (.str :: format) input = scanf (stored ++ [s]) format rest := by
  cases hinput : input.dropWhile isSpace with
  | nil => exact Or.inl (by rw [scanf, hinput])
  | cons b tail =>
      obtain ⟨htoken, hrest⟩ := token_takeWhile (begins_dropWhile input) hinput
      refine Or.inr ⟨input.takeWhile isSpace, (b :: tail).takeWhile (!isSpace ·),
        (b :: tail).dropWhile (!isSpace ·), ?_, spaces_takeWhile input, htoken, hrest, ?_⟩
      · rw [List.takeWhile_append_dropWhile, ← hinput, List.takeWhile_append_dropWhile]
      · rw [scanf, hinput]

/-- An input that passes the first part of a format stores its tokens before the rest of
the format is run. -/
theorem scanf_append_of_scans {tokens : List (List UInt8)} (h : Scans format input tokens)
    (stored : List (List UInt8)) (format' : List Directive) :
    ∃ rest, scanf stored (format ++ format') input = scanf (stored ++ tokens) format' rest := by
  induction h generalizing stored with
  | done input => exact ⟨input, by rw [List.nil_append, List.append_nil]⟩
  | space hw hrest _ ih =>
      rw [List.cons_append, scanf, dropWhile_spaces hw hrest]
      exact ih stored
  | char _ ih =>
      rw [List.cons_append, scanf, if_pos rfl]
      exact ih stored
  | @str w s rest tokens format hw hs hrest _ ih =>
      have hskip : scanf stored (.str :: (format ++ format')) (w ++ (s ++ rest)) =
          scanf stored (.str :: (format ++ format')) (s ++ rest) := by
        rw [scanf, scanf, dropWhile_spaces hw (hs.begins rest), hs.dropWhile]
      obtain ⟨rest', hrest'⟩ := ih (stored ++ [s])
      refine ⟨rest', ?_⟩
      rw [List.cons_append, hskip, scanf_str_token hs hrest, hrest', List.append_assoc,
        List.singleton_append]

theorem scanf_of_scans {tokens : List (List UInt8)} (h : Scans format input tokens) :
    scanf stored format input =
      (((stored.length + tokens.length : ℕ) : Int), stored ++ tokens) := by
  obtain ⟨rest, hscanf⟩ := scanf_append_of_scans h stored []
  rw [List.append_nil] at hscanf
  rw [hscanf, scanf, List.length_append]

theorem scans_chars {s : List UInt8} {tokens : List (List UInt8)} :
    Scans (chars s ++ format) input tokens ↔
      ∃ rest, input = s ++ rest ∧ Scans format rest tokens := by
  induction s generalizing input with
  | nil => simp [chars]
  | cons b tail ih =>
      constructor
      · intro h
        cases h with
        | char htail =>
            obtain ⟨rest, rfl, hrest⟩ := ih.mp htail
            exact ⟨rest, rfl, hrest⟩
      · rintro ⟨rest, rfl, h⟩
        exact .char (ih.mpr ⟨rest, rfl, h⟩)

/-- White space in the format and `%s` together. -/
theorem scans_space_str {tokens : List (List UInt8)} :
    Scans (.space :: .str :: format) input tokens ↔
      ∃ w s rest tokens', input = w ++ (s ++ rest) ∧ tokens = s :: tokens' ∧ Spaces w ∧ Token s ∧
        Begins true rest ∧ Scans format rest tokens' := by
  constructor
  · intro h
    cases h with
    | @space w rest _ _ hw hrest h =>
      cases h with
      | @str w' s rest' tokens' _ hw' hs hrest' h =>
          refine ⟨w ++ w', s, rest', tokens', (List.append_assoc ..).symm, rfl, ?_, hs, hrest', h⟩
          intro b hb
          rcases List.mem_append.mp hb with hb | hb
          · exact hw b hb
          · exact hw' b hb
  · rintro ⟨w, s, rest, tokens', rfl, rfl, hw, hs, hrest, h⟩
    exact .space hw (hs.begins rest) (.str (w := []) nofun hs hrest h)

/-- The last directive is a conversion. -/
def EndsInStr : List Directive → Prop
  | [] => True
  | [directive] => directive = .str
  | _ :: format => EndsInStr format

theorem EndsInStr.tail {directive : Directive} (h : EndsInStr (directive :: format)) :
    EndsInStr format := by
  cases format with
  | nil => trivial
  | cons next rest => exact h

theorem EndsInStr.count_pos {directive : Directive} (h : EndsInStr (directive :: format)) :
    0 < (directive :: format).count .str := by
  induction format generalizing directive with
  | nil =>
      obtain rfl : directive = .str := h
      decide
  | cons next rest ih =>
      have hrest : 0 < (next :: rest).count .str := ih h
      exact Nat.lt_of_lt_of_le hrest List.count_le_count_cons

theorem Scans.length_eq {tokens : List (List UInt8)} (h : Scans format input tokens) :
    tokens.length = format.count .str := by
  induction h with
  | done => rfl
  | space _ _ _ ih => simpa using ih
  | char _ ih => simpa using ih
  | str _ _ _ _ ih => simpa using ih

/-! ## What is stored -/

/-- The strings after `stored` come from the input, and the return value counts
them all, or is `EOF`. -/
structure Result (stored : List (List UInt8)) (input : List UInt8)
    (result : Int × List (List UInt8)) : Prop where
  count : result.1 = -1 ∨ result.1 = result.2.length
  stored : ∃ new, result.2 = stored ++ new ∧ ∀ s ∈ new, s ⊆ input

theorem Result.mono {rest : List UInt8} {result : Int × List (List UInt8)}
    (h : Result stored rest result) (hsub : rest ⊆ input) : Result stored input result := by
  obtain ⟨new, heq, hnew⟩ := h.stored
  exact ⟨h.count, new, heq, fun s hs => List.Subset.trans (hnew s hs) hsub⟩

theorem result_inputFailure : Result stored input (inputFailure stored, stored) := by
  refine ⟨?_, [], by simp, by simp⟩
  by_cases hnil : stored = []
  · exact Or.inl (by rw [inputFailure, if_pos hnil])
  · exact Or.inr (by rw [inputFailure, if_neg hnil])

theorem scanf_stored : Result stored input (scanf stored format input) := by
  induction format generalizing stored input with
  | nil => exact ⟨Or.inr rfl, [], by simp [scanf], by simp⟩
  | cons directive format ih =>
      cases directive with
      | space => exact ih.mono (List.dropWhile_sublist _).subset
      | char b =>
          cases input with
          | nil => exact result_inputFailure
          | cons v rest =>
              by_cases hv : v = b
              · rw [scanf, if_pos hv]
                exact ih.mono (List.subset_cons_self ..)
              · rw [scanf, if_neg hv]
                exact ⟨Or.inr rfl, [], by simp, by simp⟩
      | str =>
          rcases scanf_str_cases stored format input with
            hfail | ⟨w, s, rest, rfl, -, -, -, hscanf⟩
          · rw [hfail]
            exact result_inputFailure
          · rw [hscanf]
            obtain ⟨hcount, new, hstored, hnew⟩ :
                Result (stored ++ [s]) rest (scanf (stored ++ [s]) format rest) := ih
            have hrest : s ++ rest ⊆ w ++ (s ++ rest) := List.subset_append_right ..
            refine ⟨hcount, s :: new, ?_, ?_⟩
            · rw [hstored, List.append_assoc, List.singleton_append]
            · intro t ht
              rcases List.mem_cons.mp ht with rfl | ht
              · exact List.Subset.trans (List.subset_append_left ..) hrest
              · have hlater : t ⊆ s ++ rest :=
                  List.Subset.trans (hnew t ht) (List.subset_append_right ..)
                exact List.Subset.trans hlater hrest

/-! ## Which inputs are stored from -/

/-- If as many strings are stored as the first part of a format has conversions, the input
passes this part. -/
theorem scans_of_stored {format' : List Directive} (hends : EndsInStr format)
    (h : stored.length + format.count .str ≤ (scanf stored (format ++ format') input).2.length) :
    ∃ tokens, Scans format input tokens := by
  induction format generalizing stored input with
  | nil => exact ⟨[], .done input⟩
  | cons directive format ih =>
      have hpos := hends.count_pos
      have hmore : ¬ stored.length + (directive :: format).count .str ≤ stored.length := by omega
      rw [List.cons_append] at h
      cases directive with
      | space =>
          rw [scanf] at h
          obtain ⟨tokens, hscans⟩ := ih hends.tail (by simpa using h)
          refine ⟨tokens, ?_⟩
          rw [← List.takeWhile_append_dropWhile (p := isSpace) (l := input)]
          exact .space (spaces_takeWhile input) (begins_dropWhile input) hscans
      | char b =>
          cases input with
          | nil => exact absurd h hmore
          | cons v rest =>
              rw [scanf] at h
              split_ifs at h with hv
              · obtain ⟨tokens, hscans⟩ := ih hends.tail (by simpa using h)
                rw [hv]
                exact ⟨tokens, .char hscans⟩
              · exact absurd h hmore
      | str =>
          rcases scanf_str_cases stored (format ++ format') input with
            hfail | ⟨w, s, rest, rfl, hw, hs, hrest, hscanf⟩
          · rw [hfail] at h
            exact absurd h hmore
          · have hcount : (stored ++ [s]).length + format.count .str ≤
                (scanf (stored ++ [s]) (format ++ format') rest).2.length := by
              rw [hscanf, List.count_cons_self] at h
              rw [List.length_append, List.length_singleton]
              omega
            obtain ⟨tokens, hscans⟩ := ih hends.tail hcount
            exact ⟨s :: tokens, .str hw hs hrest hscans⟩

/-- **A format that ends in a conversion** makes all its conversions on the inputs in its
language. -/
theorem scanf_count_iff (hends : EndsInStr format) :
    (scanf stored format input).1 = (stored.length + format.count .str : ℕ) ↔
      ∃ tokens, Scans format input tokens := by
  constructor
  · intro h
    have hresult : Result stored input (scanf stored format input) := scanf_stored
    have hlength := hresult.count
    have hcount : stored.length + format.count .str ≤
        (scanf stored (format ++ []) input).2.length := by
      rw [List.append_nil]
      omega
    exact scans_of_stored hends hcount
  · rintro ⟨tokens, h⟩
    rw [scanf_of_scans h, h.length_eq]

/-- **The string of the last conversion** in the first part of a format is the last token
of this part. -/
theorem scanf_getElem?_iff {format' : List Directive} (hends : EndsInStr format) {k : ℕ}
    (hk : format.count .str = k + 1) {s : List UInt8} :
    (scanf [] (format ++ format') input).2[k]? = some s ↔
      ∃ tokens, Scans format input tokens ∧ tokens[k]? = some s := by
  have htokens : ∀ {tokens : List (List UInt8)}, Scans format input tokens →
      (scanf [] (format ++ format') input).2[k]? = tokens[k]? := by
    intro tokens hscans
    obtain ⟨rest, hscanf⟩ := scanf_append_of_scans hscans [] format'
    obtain ⟨-, more, hstored, -⟩ : Result ([] ++ tokens) rest
      (scanf ([] ++ tokens) format' rest) := scanf_stored
    rw [hscanf, hstored, List.nil_append, List.getElem?_append_left]
    have hcount := hscans.length_eq
    omega
  constructor
  · intro hs
    obtain ⟨hlt, -⟩ := List.getElem?_eq_some_iff.mp hs
    have hcount : ([] : List (List UInt8)).length + format.count .str ≤
        (scanf [] (format ++ format') input).2.length := by
      rw [hk, List.length_nil, Nat.zero_add]
      exact hlt
    obtain ⟨tokens, hscans⟩ := scans_of_stored hends hcount
    exact ⟨tokens, hscans, (htokens hscans).symm.trans hs⟩
  · rintro ⟨tokens, hscans, hs⟩
    exact (htokens hscans).trans hs

end Scanf
