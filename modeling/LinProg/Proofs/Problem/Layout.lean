import LinProg.Problem.Export
import LinProg.Proofs.Text.Sum

/-!
How an export is laid out. Its text is lines of words. The lines of the rows and of the bounds are
indented and the lines that open what follows them are not, and a line shows of what shape it is,
so different exports have different texts.
-/

namespace LinProg

open Text

theorem map_zipIdx_inj {β γ : Type} {f : β × Nat → γ} {P : β → Prop} {xs xs' : List β} {k : Nat}
    (hf : ∀ x x' i, P x → P x' → f (x, i) = f (x', i) → x = x') (hxs : ∀ x ∈ xs, P x)
    (hxs' : ∀ x ∈ xs', P x) (h : (xs.zipIdx k).map f = (xs'.zipIdx k).map f) : xs = xs' := by
  induction xs generalizing xs' k with
  | nil =>
    cases xs' with
    | nil => rfl
    | cons x' xs' => simp at h
  | cons x xs ih =>
    cases xs' with
    | nil => simp at h
    | cons x' xs' =>
      obtain ⟨hx, hxs⟩ := List.forall_mem_cons.1 hxs
      obtain ⟨hx', hxs'⟩ := List.forall_mem_cons.1 hxs'
      rw [List.zipIdx_cons, List.zipIdx_cons, List.map_cons, List.map_cons] at h
      obtain ⟨hfirst, hrest⟩ := List.cons.inj h
      rw [hf x x' k hx hx' hfirst, ih hxs hxs' hrest]

theorem map_inj_of_forall {β γ : Type} {f : β → γ} {P : β → Prop} {xs xs' : List β}
    (hf : ∀ x x', P x → P x' → f x = f x' → x = x') (hxs : ∀ x ∈ xs, P x) (hxs' : ∀ x ∈ xs', P x)
    (h : xs.map f = xs'.map f) : xs = xs' := by
  have hplaces (xs : List β) : xs.zipIdx.map (f ∘ Prod.fst) = xs.map f := by
    rw [← List.map_map, List.zipIdx_map_fst]
  refine map_zipIdx_inj (f := f ∘ Prod.fst) (fun x x' _ => hf x x') hxs hxs' (k := 0) ?_
  rw [hplaces, hplaces, h]

theorem ProblemKind.name_injective : Function.Injective ProblemKind.name := by
  intro k k' h
  cases k <;> cases k' <;> simp [name] at h ⊢

theorem Sense.symbol_injective : Function.Injective Sense.symbol := by
  intro s s' h
  cases s <;> cases s' <;> simp [symbol] at h ⊢

def Indented (words : List String) : Prop :=
  words.head? = some ""

instance (words : List String) : Decidable (Indented words) :=
  inferInstanceAs (Decidable (_ = _))

namespace Export

def titledLines (title : String) (columns : List Nat) : List (List String) :=
  match columns with
  | [] => []
  | columns => [[title], "" :: columns.map columnName]

def lastLines (integers binaries : List Nat) : List (List String) :=
  titledLines "General" integers ++ (titledLines "Binary" binaries ++ [["End"]])

theorem titled_eq (title : String) (columns : List Nat) :
    titled title columns = String.join ((titledLines title columns).map Text.line) := by
  cases columns with
  | nil => rfl
  | cons c columns =>
    simp [titled, titledLines, Text.line, String.intercalate_cons_cons, ← String.toList_inj]

theorem isLine_titledLines {title : String} (h : IsWord title) (columns : List Nat) :
    ∀ l ∈ titledLines title columns, IsLine l := by
  cases columns with
  | nil => simp [titledLines]
  | cons c columns =>
    have hnames : IsLine ("" :: (c :: columns).map columnName) :=
      isLine_cons.2 ⟨by decide, List.forall_mem_map.2 fun c _ => isWord_columnName c⟩
    simpa [titledLines] using ⟨isLine_cons.2 ⟨h, by simp⟩, hnames⟩

theorem isLine_lastLines (integers binaries : List Nat) :
    ∀ l ∈ lastLines integers binaries, IsLine l := by
  refine List.forall_mem_append.2 ⟨isLine_titledLines (by decide) integers, ?_⟩
  refine List.forall_mem_append.2 ⟨isLine_titledLines (by decide) binaries, ?_⟩
  simpa using isLine_cons.2 ⟨by decide, by simp⟩

theorem exists_lastLines (integers binaries : List Nat) :
    ∃ first rest, lastLines integers binaries = first :: rest ∧ ¬ Indented first := by
  cases integers with
  | cons c columns => exact ⟨_, _, rfl, by decide⟩
  | nil =>
    cases binaries with
    | cons c columns => exact ⟨_, _, rfl, by decide⟩
    | nil => exact ⟨_, _, rfl, by decide⟩

theorem titledLines_append_inj {title : String} {columns columns' : List Nat}
    {rest rest' : List (List String)} (hrest : rest.head? ≠ some [title])
    (hrest' : rest'.head? ≠ some [title])
    (h : titledLines title columns ++ rest = titledLines title columns' ++ rest') :
    columns = columns' ∧ rest = rest' := by
  cases columns with
  | nil =>
    cases columns' with
    | nil => exact ⟨rfl, h⟩
    | cons c' columns' => exact absurd (congrArg List.head? h) hrest
  | cons c columns =>
    cases columns' with
    | nil => exact absurd (congrArg List.head? h).symm hrest'
    | cons c' columns' =>
      obtain ⟨hlines, rfl⟩ := List.append_inj h rfl
      have hnames : (c :: columns).map columnName = (c' :: columns').map columnName := by
        simpa [titledLines] using hlines
      exact ⟨(List.map_inj_right fun _ _ hc => columnName_injective hc).1 hnames, rfl⟩

theorem lastLines_inj {integers integers' binaries binaries' : List Nat}
    (h : lastLines integers binaries = lastLines integers' binaries') :
    integers = integers' ∧ binaries = binaries' := by
  have hgeneral (columns : List Nat) :
      (titledLines "Binary" columns ++ [["End"]]).head? ≠ some ["General"] := by
    cases columns <;> simp [titledLines]
  obtain ⟨hintegers, h⟩ := titledLines_append_inj (hgeneral _) (hgeneral _) h
  exact ⟨hintegers, (titledLines_append_inj (by decide) (by decide) h).1⟩

end Export

variable {α : Type} [Numeral α]

theorem Text.sumWords_ne_nil (terms : List (Nat × α)) : sumWords terms ≠ [] := by
  obtain ⟨w, c, rest, h⟩ := exists_sumWords terms
  simp [h]

def rowName (i : Nat) : String :=
  s!"c{i}:"

theorem isWord_rowName (i : Nat) : IsWord (rowName i) :=
  IsWord.append (IsWord.append (by decide) (isWord_repr i)) (by decide)

namespace ExportRow

def words : ExportRow α × Nat → List String
  | (.compared terms sense rhs, i) =>
    "" :: rowName i :: (sumWords terms ++ [sense.symbol, Numeral.plain rhs])
  | (.between low terms high, i) =>
    "" :: rowName i :: Numeral.plain low :: "<=" :: (sumWords terms ++ ["<=", Numeral.plain high])

theorem line_eq (row : ExportRow α × Nat) : ExportRow.line row = Text.line (words row) := by
  obtain ⟨⟨terms, sense, rhs⟩ | ⟨low, terms, high⟩, i⟩ := row <;>
    simp [words, Text.line, ExportRow.line, rowName, toString, sumText_eq, sumWords_ne_nil,
      String.intercalate_cons_of_ne_nil, String.intercalate_append_of_ne_nil, ← String.toList_inj]

theorem indented_words (row : ExportRow α × Nat) : Indented (words row) := by
  obtain ⟨_ | _, i⟩ := row <;> rfl

theorem sumWords_append_ne (terms : List (Nat × α)) (last rest : List String) (w : String) :
    sumWords terms ++ last ≠ w :: "<=" :: rest := by
  obtain ⟨v, c, more, hv⟩ := exists_sumWords terms
  intro h
  rw [hv] at h
  exact columnName_ne (by decide) c (List.cons.inj (List.cons.inj h).2).1

variable [Scalar α] [LawfulNumeral α]

theorem isLine_words (row : ExportRow α × Nat) : IsLine (words row) := by
  obtain ⟨⟨terms, sense, rhs⟩ | ⟨low, terms, high⟩, i⟩ := row
  · have hsense : IsWord sense.symbol := by cases sense <;> decide
    refine isLine_cons.2 ⟨by decide, List.forall_mem_cons.2 ⟨isWord_rowName i, ?_⟩⟩
    refine List.forall_mem_append.2 ⟨isWord_of_mem_sumWords, ?_⟩
    simpa using ⟨hsense, LawfulNumeral.isWord_plain rhs⟩
  · have hle : IsWord "<=" := by decide
    refine isLine_cons.2 ⟨by decide, List.forall_mem_cons.2 ⟨isWord_rowName i, ?_⟩⟩
    refine List.forall_mem_cons.2 ⟨LawfulNumeral.isWord_plain low, ?_⟩
    refine List.forall_mem_cons.2 ⟨hle, ?_⟩
    refine List.forall_mem_append.2 ⟨isWord_of_mem_sumWords, ?_⟩
    simpa using ⟨hle, LawfulNumeral.isWord_plain high⟩

theorem words_inj {row row' : ExportRow α} {i : Nat} (h : words (row, i) = words (row', i)) :
    row = row' := by
  cases row with
  | compared terms sense rhs =>
    cases row' with
    | compared terms' sense' rhs' =>
      simp only [words, List.cons.injEq, true_and] at h
      obtain ⟨hterms, hlast⟩ := List.append_inj' h rfl
      simp only [List.cons.injEq, and_true] at hlast
      rw [sumWords_injective hterms, Sense.symbol_injective hlast.1,
        LawfulNumeral.plain_injective hlast.2]
    | between low' terms' high' =>
      simp only [words, List.cons.injEq, true_and] at h
      exact absurd h (sumWords_append_ne terms _ _ _)
  | between low terms high =>
    cases row' with
    | compared terms' sense' rhs' =>
      simp only [words, List.cons.injEq, true_and] at h
      exact absurd h.symm (sumWords_append_ne terms' _ _ _)
    | between low' terms' high' =>
      simp only [words, List.cons.injEq, true_and] at h
      obtain ⟨hlow, hrest⟩ := h
      obtain ⟨hterms, hlast⟩ := List.append_inj' hrest rfl
      simp only [List.cons.injEq, and_true, true_and] at hlast
      rw [LawfulNumeral.plain_injective hlow, sumWords_injective hterms,
        LawfulNumeral.plain_injective hlast]

end ExportRow

namespace ExportBounds

def words : ExportBounds α × Nat → List String
  | (.free, c) => ["", columnName c, "free"]
  | (.atLeast low, c) => ["", columnName c, ">=", Numeral.plain low]
  | (.atMost high, c) => ["", "-inf", "<=", columnName c, "<=", Numeral.plain high]
  | (.between low high, c) => ["", Numeral.plain low, "<=", columnName c, "<=", Numeral.plain high]

theorem line_eq (bounds : ExportBounds α × Nat) :
    ExportBounds.line bounds = Text.line (words bounds) := by
  obtain ⟨_ | _ | _ | _, c⟩ := bounds <;>
    simp [words, Text.line, ExportBounds.line, toString, String.intercalate_cons_cons,
      ← String.toList_inj]

theorem indented_words (bounds : ExportBounds α × Nat) : Indented (words bounds) := by
  obtain ⟨_ | _ | _ | _, c⟩ := bounds <;> rfl

variable [Scalar α]

open Scalar

/-- Bounds on both sides have a finite one below, as those of an interval do. -/
def Proper : ExportBounds α → Prop
  | .between low _ => isFinite low = true
  | _ => True

omit [Numeral α] in
theorem proper_ofInterval (i : Interval α) : (ofInterval i).Proper := by
  rw [ofInterval]
  split
  · trivial
  · trivial
  · trivial
  · rename_i hlow _
    exact hlow

variable [LawfulNumeral α]

theorem isLine_words (bounds : ExportBounds α × Nat) : IsLine (words bounds) := by
  have hconst : ∀ w ∈ ["", "free", ">=", "<=", "-inf"], IsWord w := by decide
  obtain ⟨bounds, c⟩ := bounds
  cases bounds <;>
    simp [words, isLine_cons, isWord_columnName, LawfulNumeral.isWord_plain, hconst]

theorem plain_ne_negInf {a : α} (h : isFinite a = true) : Numeral.plain a ≠ "-inf" := by
  intro heq
  rw [← LawfulNumeral.plain_negInf (α := α)] at heq
  rw [LawfulNumeral.plain_injective heq, isFinite, LawfulScalar.value_negInf] at h
  cases h

theorem words_inj {bounds bounds' : ExportBounds α} {c : Nat} (hb : bounds.Proper)
    (hb' : bounds'.Proper) (h : words (bounds, c) = words (bounds', c)) : bounds = bounds' := by
  cases bounds <;> cases bounds' <;> simp [words, LawfulNumeral.plain_injective.eq_iff] at h
  case free.free => rfl
  case atLeast.atLeast => rw [h]
  case atMost.atMost => rw [h]
  case atMost.between => exact absurd h.1.symm (plain_ne_negInf hb')
  case between.atMost => exact absurd h.1 (plain_ne_negInf hb)
  case between.between => rw [h.1, h.2]

end ExportBounds

namespace Export

def lines (e : Export α) : List (List String) :=
  ["\\", e.kind.name, "problem"] :: [if e.maximised then "Maximize" else "Minimize"] ::
    ("" :: "obj:" :: sumWords e.objective) :: ["Subject", "To"] ::
    (e.rows.zipIdx.map ExportRow.words ++
      ["Bounds"] :: (e.bounds.zipIdx.map ExportBounds.words ++ lastLines e.integers e.binaries))

theorem render_eq (e : Export α) : e.render = String.join (e.lines.map Text.line) := by
  have hrows : (e.rows.zipIdx.map ExportRow.words).map Text.line =
      e.rows.zipIdx.map ExportRow.line := by
    simp [ExportRow.line_eq]
  have hbounds : (e.bounds.zipIdx.map ExportBounds.words).map Text.line =
      e.bounds.zipIdx.map ExportBounds.line := by
    simp [ExportBounds.line_eq]
  have hdirection : Text.line [if e.maximised then "Maximize" else "Minimize"] =
      if e.maximised then "Maximize\n" else "Minimize\n" := by
    split <;> rfl
  rw [render, titled_eq, titled_eq, lines, lastLines]
  simp only [List.map_cons, List.map_append, hrows, hbounds, hdirection]
  simp [Text.line, sumText_eq, toString, String.intercalate_cons_of_ne_nil, sumWords_ne_nil,
    ← String.toList_inj]

variable [Scalar α] [LawfulNumeral α]

theorem isLine_lines (e : Export α) : ∀ l ∈ e.lines, IsLine l := by
  have hkind : IsWord e.kind.name := by cases e.kind <;> decide
  have hdirection : IsWord (if e.maximised then "Maximize" else "Minimize") := by
    split <;> decide
  refine List.forall_mem_cons.2 ⟨by simpa [isLine_cons] using ⟨by decide, hkind, by decide⟩, ?_⟩
  refine List.forall_mem_cons.2 ⟨isLine_cons.2 ⟨hdirection, by simp⟩, ?_⟩
  refine List.forall_mem_cons.2 ⟨isLine_cons.2 ⟨by decide, List.forall_mem_cons.2
    ⟨by decide, isWord_of_mem_sumWords⟩⟩, ?_⟩
  refine List.forall_mem_cons.2 ⟨by decide, ?_⟩
  refine List.forall_mem_append.2 ⟨List.forall_mem_map.2 fun _ _ => ExportRow.isLine_words _, ?_⟩
  refine List.forall_mem_cons.2 ⟨by decide, ?_⟩
  exact List.forall_mem_append.2
    ⟨List.forall_mem_map.2 fun _ _ => ExportBounds.isLine_words _, isLine_lastLines _ _⟩

theorem lines_inj {e e' : Export α} (he : ∀ b ∈ e.bounds, b.Proper)
    (he' : ∀ b ∈ e'.bounds, b.Proper) (h : e.lines = e'.lines) : e = e' := by
  simp only [lines, List.cons.injEq, and_true, true_and] at h
  obtain ⟨hkind, hmaximised, hobjective, hrest⟩ := h
  obtain ⟨hrows, -, hrest⟩ := eq_of_append_cons (P := Indented)
    (List.forall_mem_map.2 fun _ _ => ExportRow.indented_words _)
    (List.forall_mem_map.2 fun _ _ => ExportRow.indented_words _) (by decide) (by decide) hrest
  obtain ⟨first, rest, hlast, hfirst⟩ := exists_lastLines e.integers e.binaries
  obtain ⟨first', rest', hlast', hfirst'⟩ := exists_lastLines e'.integers e'.binaries
  rw [hlast, hlast'] at hrest
  obtain ⟨hbounds, rfl, rfl⟩ := eq_of_append_cons
    (List.forall_mem_map.2 fun _ _ => ExportBounds.indented_words _)
    (List.forall_mem_map.2 fun _ _ => ExportBounds.indented_words _) hfirst hfirst' hrest
  have hrows : e.rows = e'.rows :=
    map_zipIdx_inj (P := fun _ => True) (fun _ _ _ _ _ => ExportRow.words_inj) (fun _ _ => trivial)
      (fun _ _ => trivial) hrows
  have hbounds : e.bounds = e'.bounds :=
    map_zipIdx_inj (fun _ _ _ => ExportBounds.words_inj) he he' hbounds
  obtain ⟨hintegers, hbinaries⟩ := lastLines_inj (hlast.trans hlast'.symm)
  have hdirection : e.maximised = e'.maximised := by
    cases hm : e.maximised <;> cases hm' : e'.maximised <;> simp [hm, hm'] at hmaximised ⊢
  have hobjective := sumWords_injective hobjective
  have hkind := ProblemKind.name_injective hkind
  cases e
  cases e'
  simp_all

theorem render_inj {e e' : Export α} (he : ∀ b ∈ e.bounds, b.Proper)
    (he' : ∀ b ∈ e'.bounds, b.Proper) (h : e.render = e'.render) : e = e' := by
  rw [render_eq, render_eq] at h
  exact lines_inj he he' (Text.lines_inj e.isLine_lines e'.isLine_lines h)

end Export

end LinProg
