import AnnotationWeaver.Literal.Naming
import AnnotationWeaver.Proofs.MemberOrder

/-!
The canonical text of an annotation, from which one-off classes are named. The text sorts the outermost members
only, so annotations that are the same may have different texts: those of an annotation inside keep the order in
which its members stand. Annotations that are the same have texts of the same length in any case, since the
order of members changes no length; hence their canonical texts are equal exactly when each member reads the
same in both.
-/
namespace AnnotationWeaver

/-! ### Texts with separators -/

/-- The length of texts that are each followed by a separator. -/
def separatedSize : List String → Nat
  | [] => 0
  | t :: rest => t.length + 2 + separatedSize rest

theorem separatedSize_append (ts us : List String) :
    separatedSize (ts ++ us) = separatedSize ts + separatedSize us := by
  induction ts with
  | nil => simp [separatedSize]
  | cons t rest ih =>
    simp only [List.cons_append, separatedSize, ih]
    omega

theorem length_intercalate (t : String) (rest : List String) :
    (", ".intercalate (t :: rest)).length + 2 = separatedSize (t :: rest) := by
  induction rest generalizing t with
  | nil => simp [separatedSize]
  | cons u rest ih =>
    have tail := ih u
    rw [String.intercalate_cons_cons, String.length_append, String.length_append, separatedSize, ← tail]
    have separator : (", " : String).length = 2 := by decide
    omega

/-- Joined texts are as long as their parts with the separators. -/
theorem length_intercalate_eq {ts us : List String} (sizes : separatedSize ts = separatedSize us) :
    (", ".intercalate ts).length = (", ".intercalate us).length := by
  cases ts with
  | nil =>
    cases us with
    | nil => rfl
    | cons u others =>
      simp only [separatedSize] at sizes
      omega
  | cons t rest =>
    cases us with
    | nil =>
      simp only [separatedSize] at sizes
      omega
    | cons u others =>
      have left := length_intercalate t rest
      have right := length_intercalate u others
      omega

/-- Texts that begin with parts of one length are equal only if both parts are. -/
theorem append_inj_of_length {s t s' t' : String} (lengths : s.length = s'.length) (same : s ++ t = s' ++ t') :
    s = s' ∧ t = t' := by
  have characters := congrArg String.toList same
  rw [String.toList_append, String.toList_append] at characters
  have sizes : s.toList.length = s'.toList.length := by
    rw [String.length_toList, String.length_toList]
    exact lengths
  obtain ⟨first, second⟩ := List.append_inj characters sizes
  exact ⟨String.toList_inj.1 first, String.toList_inj.1 second⟩

/-- Joined texts of equal lengths in each place are equal only if they are so in each place. -/
theorem intercalate_inj {ts us : List String} (lengths : ts.map String.length = us.map String.length)
    (same : ", ".intercalate ts = ", ".intercalate us) : ts = us := by
  induction ts generalizing us with
  | nil =>
    cases us with
    | nil => rfl
    | cons u others => simp at lengths
  | cons t rest ih =>
    cases us with
    | nil => simp at lengths
    | cons u others =>
      obtain ⟨first, later⟩ := List.cons.inj lengths
      cases rest with
      | nil =>
        obtain rfl : others = [] := by simpa using later.symm
        simpa using same
      | cons t' rest =>
        cases others with
        | nil => simp at later
        | cons u' others =>
          rw [String.intercalate_cons_cons, String.intercalate_cons_cons, String.append_assoc,
            String.append_assoc] at same
          obtain ⟨heads, joined⟩ := append_inj_of_length first same
          rw [heads, ih later ((String.append_right_inj _).1 joined)]

/-! ### Lengths of texts -/

theorem Member.nil_iff_of_sameAll {ms ns : List Member} (same : sameAll ms ns = true) : ms = [] ↔ ns = [] := by
  have names := (names_perm_of_sameAll same).length_eq
  rw [List.length_map, List.length_map] at names
  rw [← List.length_eq_zero_iff, ← List.length_eq_zero_iff, names]

theorem Member.texts_eq_map (ms : List Member) : Member.texts ms = ms.map Member.text := by
  induction ms with
  | nil => rfl
  | cons m rest ih => rw [Member.texts, ih, List.map_cons]

theorem Member.text_eq (m : Member) : m.text = m.name ++ "=" ++ m.value.text := by
  cases m with
  | mk name value => rfl

theorem Annotation.text_eq (type : TypeName) (ms : List Member) :
    Annotation.text ⟨type, ms⟩ =
      "@" ++ type.text ++ if ms = [] then "" else "(" ++ ", ".intercalate (Member.texts ms) ++ ")" := by
  cases ms with
  | nil => simp [text]
  | cons m rest => simp [text, Member.texts, String.append_assoc]

/-- Values without annotations inside are the same only if they are equal. -/
theorem Value.eq_of_same {v w : Value} (single : v.nested? = none) (plain : v.elements? = none)
    (same : v.same w = true) : v = w := by
  cases v with
  | nested a => cases single
  | array component elements => cases plain
  | _ => cases w <;> simp_all [Value.same]

mutual

/-- The order of members changes no length. -/
theorem Value.length_text_of_same {v w : Value} (same : v.same w = true) : v.text.length = w.text.length := by
  cases v with
  | nested a =>
    cases w with
    | nested b =>
      rw [Value.same] at same
      rw [Value.text, Value.text]
      exact Annotation.length_text_of_same same
    | _ => simp [Value.same] at same
  | array component elements =>
    cases w with
    | array kind others =>
      rw [Value.same, Bool.and_eq_true] at same
      simp only [Value.text, String.length_append, length_intercalate_eq (Value.size_texts_of_sameAll same.2)]
    | _ => simp [Value.same] at same
  | _ => rw [Value.eq_of_same rfl rfl same]
termination_by structural v

theorem Value.size_texts_of_sameAll {vs ws : List Value} (same : Value.sameAll vs ws = true) :
    separatedSize (Value.texts vs) = separatedSize (Value.texts ws) := by
  cases vs with
  | nil =>
    cases ws with
    | nil => rfl
    | cons w others => simp [Value.sameAll] at same
  | cons v rest =>
    cases ws with
    | nil => simp [Value.sameAll] at same
    | cons w others =>
      rw [Value.sameAll, Bool.and_eq_true] at same
      simp only [Value.texts, separatedSize, Value.length_text_of_same same.1, Value.size_texts_of_sameAll same.2]
termination_by structural vs

theorem Annotation.length_text_of_same {a b : Annotation} (same : a.same b = true) :
    a.text.length = b.text.length := by
  cases a with
  | mk type members =>
    cases b with
    | mk type' others =>
      unfold Annotation.same at same
      rw [Bool.and_eq_true] at same
      obtain rfl : type = type' := by simpa using same.1
      have inside := length_intercalate_eq (Member.size_texts_of_sameAll same.2)
      have empty := Member.nil_iff_of_sameAll same.2
      have text := Annotation.text_eq
      by_cases marker : members = []
      · rw [text, text, if_pos marker, if_pos (empty.1 marker)]
      · rw [text, text, if_neg marker, if_neg (mt empty.2 marker)]
        simp only [String.length_append, inside]
termination_by structural a

theorem Member.size_texts_of_sameAll {ms ns : List Member} (same : Member.sameAll ms ns = true) :
    separatedSize (Member.texts ms) = separatedSize (Member.texts ns) := by
  cases ms with
  | nil =>
    obtain rfl : ns = [] := by simpa [Member.sameAll] using same
    rfl
  | cons m rest =>
    rw [Member.sameAll, Bool.and_eq_true, List.any_eq_true] at same
    obtain ⟨⟨candidate, listed, matching⟩, others⟩ := same
    obtain ⟨n, before, after, -, partner, rfl, erased⟩ := List.exists_of_eraseP listed matching
    rw [erased] at others
    have head := Member.length_text_of_same partner
    have tail := Member.size_texts_of_sameAll others
    simp only [Member.texts_eq_map, List.map_append, List.map_cons, separatedSize_append, separatedSize] at tail ⊢
    omega
termination_by structural ms

theorem Member.length_text_of_same {m n : Member} (same : m.same n = true) : m.text.length = n.text.length := by
  cases m with
  | mk name value =>
    cases n with
    | mk name' value' =>
      rw [Member.same, Bool.and_eq_true] at same
      obtain rfl : name = name' := by simpa using same.1
      simp only [Member.text, String.length_append, Value.length_text_of_same same.2]
termination_by structural m

end

/-! ### Members in the order of their names -/

/-- How a member reads in the text of the annotation, if it is set. -/
def Annotation.reading? (a : Annotation) (member : String) : Option String := (a.value? member).map Value.text

namespace Literal

/-- The names of the members in their order. -/
def sortedNames (a : Annotation) : List String := (sortedMembers a).map (·.name)

theorem sortedMembers_perm (a : Annotation) : (sortedMembers a).Perm a.members := List.mergeSort_perm _ _

theorem mem_sortedNames {a : Annotation} {name : String} : name ∈ sortedNames a ↔ (a.value? name).isSome := by
  rw [sortedNames, ((sortedMembers_perm a).map _).mem_iff, ← Member.lookup?_isSome_iff, Annotation.value?]

theorem sortedNames_pairwise (a : Annotation) : (sortedNames a).Pairwise (· ≤ ·) := by
  have transitive (m n o : Member) (before : decide (m.name ≤ n.name) = true)
      (after : decide (n.name ≤ o.name) = true) : decide (m.name ≤ o.name) = true :=
    decide_eq_true (String.le_trans (of_decide_eq_true before) (of_decide_eq_true after))
  have total (m n : Member) : (decide (m.name ≤ n.name) || decide (n.name ≤ m.name)) = true := by
    simpa using String.le_total m.name n.name
  have sorted := List.pairwise_mergeSort transitive total a.members
  exact List.pairwise_map.2 (sorted.imp fun before => of_decide_eq_true before)

/-- Sorting puts the same names in the same places, whatever order they stood in. -/
theorem sortedNames_eq_of_perm {a b : Annotation} (names : (a.members.map (·.name)).Perm (b.members.map (·.name))) :
    sortedNames a = sortedNames b := by
  have perm : (sortedNames a).Perm (sortedNames b) :=
    ((sortedMembers_perm a).map _).trans (names.trans ((sortedMembers_perm b).map _).symm)
  exact perm.eq_of_pairwise (fun _ _ _ _ before after => String.le_antisymm before after) (sortedNames_pairwise a)
    (sortedNames_pairwise b)

/-- The text of a member that is found by its name. -/
def readingText (a : Annotation) (name : String) : String := name ++ "=" ++ (a.reading? name).getD ""

theorem texts_sortedMembers {a : Annotation} (once : a.SetsOnce) :
    Member.texts (sortedMembers a) = (sortedNames a).map (readingText a) := by
  rw [Member.texts_eq_map, sortedNames, List.map_map]
  refine List.map_congr_left fun m member => ?_
  have found := Member.lookup?_of_mem once ((sortedMembers_perm a).mem_iff.1 member)
  simp [readingText, Annotation.reading?, Annotation.value?, found, Member.text_eq]

theorem canonicalText_eq {a : Annotation} (once : a.SetsOnce) :
    canonicalText a =
      "@" ++ a.type.text ++ "(" ++ ", ".intercalate ((sortedNames a).map (readingText a)) ++ ")" := by
  rw [canonicalText, texts_sortedMembers once]

/-- Members of annotations that are the same read equally long. -/
theorem length_readingText_of_same {a b : Annotation} (once : a.SetsOnce) (same : (a == b) = true) {name : String}
    (named : name ∈ sortedNames a) : (readingText a name).length = (readingText b name).length := by
  obtain ⟨v, found⟩ := Option.isSome_iff_exists.1 (mem_sortedNames.1 named)
  obtain ⟨-, members⟩ := Annotation.same_iff.1 same
  obtain ⟨w, other, equal⟩ := Member.exists_lookup?_of_sameAll members once found
  have left : a.reading? name = some v.text := congrArg (Option.map Value.text) found
  have right : b.reading? name = some w.text := congrArg (Option.map Value.text) other
  simp only [readingText, left, right, String.length_append, Option.getD_some, Value.length_text_of_same equal]

/-- What two annotations read for members that both set decides whether the texts of these are equal. -/
theorem map_readingText_eq_iff {a b : Annotation} (names : sortedNames a = sortedNames b) :
    (sortedNames a).map (readingText a) = (sortedNames b).map (readingText b) ↔
      ∀ name, a.reading? name = b.reading? name := by
  have unset {c : Annotation} {name : String} (unnamed : name ∉ sortedNames c) : c.reading? name = none := by
    rw [mem_sortedNames, Option.not_isSome_iff_eq_none] at unnamed
    unfold Annotation.reading?
    rw [unnamed, Option.map_none]
  have isSet {c : Annotation} {name : String} (named : name ∈ sortedNames c) :
      c.reading? name = some ((c.reading? name).getD "") := by
    obtain ⟨v, found⟩ := Option.isSome_iff_exists.1 (mem_sortedNames.1 named)
    unfold Annotation.reading?
    rw [found, Option.map_some, Option.getD_some]
  rw [← names, List.map_inj_left]
  constructor
  · intro texts name
    by_cases named : name ∈ sortedNames a
    · have readings := (String.append_right_inj _).1 (texts name named)
      exact (isSet named).trans ((congrArg some readings).trans (isSet (names ▸ named)).symm)
    · rw [unset named, unset (names ▸ named)]
  · intro readings name _
    rw [readingText, readingText, readings name]

/-- The order of the outermost members alone does not matter. -/
theorem canonicalText_of_perm {a b : Annotation} (once : a.SetsOnce) (type : a.type = b.type)
    (perm : a.members.Perm b.members) : canonicalText a = canonicalText b := by
  have names := perm.map (·.name)
  have onceToo : b.SetsOnce := names.nodup_iff.1 once
  have readings (name : String) : a.reading? name = b.reading? name :=
    congrArg (Option.map Value.text) (Member.lookup?_perm perm once name)
  rw [canonicalText_eq once, canonicalText_eq onceToo, type,
    (map_readingText_eq_iff (sortedNames_eq_of_perm names)).2 readings]

theorem canonicalText_eq_iff_of_same {a b : Annotation} (once : a.SetsOnce) (same : (a == b) = true) :
    canonicalText a = canonicalText b ↔ ∀ member, a.reading? member = b.reading? member := by
  obtain ⟨type, members⟩ := Annotation.same_iff.1 same
  have perm := Member.names_perm_of_sameAll members
  have names := sortedNames_eq_of_perm perm
  have onceToo : b.SetsOnce := perm.nodup_iff.1 once
  rw [canonicalText_eq once, canonicalText_eq onceToo, ← type, String.append_left_inj, String.append_right_inj,
    ← map_readingText_eq_iff names]
  constructor
  · intro joined
    refine intercalate_inj ?_ joined
    rw [← names, List.map_map, List.map_map]
    exact List.map_congr_left fun name named => length_readingText_of_same once same named
  · intro texts
    rw [texts]

/-- One-off names of annotations of one type are equal exactly when the digests of their texts are. -/
theorem oneOffName_eq_iff {a b : Annotation} (type : a.type = b.type) (targetPackage generatedPackage : String) :
    oneOffName a targetPackage generatedPackage = oneOffName b targetPackage generatedPackage ↔
      annotationDigest a = annotationDigest b := by
  simp only [oneOffName, type]
  generalize (if isProtected targetPackage then generatedPackage else targetPackage) = package
  by_cases unnamed : package = ""
  · simp [unnamed, String.append_assoc]
  · simp [unnamed, String.append_assoc]

/-- Annotations that are the same have equal canonical texts exactly when every member reads the same in both, as
    the members of annotations inside keep their order. Then their one-off names are equal in whatever packages; and
    only if the digests of their texts are equal can the names be so. -/
theorem canonicalText_and_oneOffName_of_same {a b : Annotation} (once : a.SetsOnce) (same : (a == b) = true) :
    (canonicalText a = canonicalText b ↔ ∀ member, a.reading? member = b.reading? member) ∧
      ∀ targetPackage generatedPackage,
        ((∀ member, a.reading? member = b.reading? member) →
          oneOffName a targetPackage generatedPackage = oneOffName b targetPackage generatedPackage) ∧
        (oneOffName a targetPackage generatedPackage = oneOffName b targetPackage generatedPackage →
          annotationDigest a = annotationDigest b) := by
  have texts := canonicalText_eq_iff_of_same once same
  obtain ⟨types, -⟩ := Annotation.same_iff.1 same
  have names := oneOffName_eq_iff types
  refine ⟨texts, fun targetPackage generatedPackage => ⟨fun readings => ?_, (names _ _).1⟩⟩
  have digests : annotationDigest a = annotationDigest b := congrArg digest (texts.2 readings)
  exact (names targetPackage generatedPackage).2 digests

/-- A range with its bounds set in the order in which they are listed. -/
def range (bounds : List (String × Value)) : Value := .nested (.ofList ⟨"app.Range"⟩ bounds)

/-- A strict limit on a range. -/
def strictLimit : Annotation :=
  .ofList ⟨"app.Limit"⟩ [("strict", .boolean true), ("range", range [("min", .int 1), ("max", .int 5)])]

/-- The same limit, its members set in the other order. -/
def limitStrictly : Annotation :=
  .ofList ⟨"app.Limit"⟩ [("range", range [("min", .int 1), ("max", .int 5)]), ("strict", .boolean true)]

theorem canonicalText_and_oneOffName_of_strictLimit :
    strictLimit.SetsOnce ∧ (strictLimit == limitStrictly) = true ∧
      canonicalText strictLimit = canonicalText limitStrictly ∧
      ∀ targetPackage generatedPackage,
        oneOffName strictLimit targetPackage generatedPackage =
          oneOffName limitStrictly targetPackage generatedPackage := by
  have once : strictLimit.SetsOnce := by decide
  have same : (strictLimit == limitStrictly) = true := by decide
  have perm : strictLimit.members.Perm limitStrictly.members := List.Perm.swap _ _ _
  have readings (member : String) : strictLimit.reading? member = limitStrictly.reading? member :=
    congrArg (Option.map Value.text) (Member.lookup?_perm perm once member)
  obtain ⟨texts, names⟩ := canonicalText_and_oneOffName_of_same once same
  refine ⟨once, same, texts.2 readings, fun targetPackage generatedPackage => ?_⟩
  exact (names targetPackage generatedPackage).1 readings

/-- A limit on a range alone. -/
def limit (bounds : List (String × Value)) : Annotation := .ofList ⟨"app.Limit"⟩ [("range", range bounds)]

/-- The order of members inside tells annotations apart that are the same. -/
theorem oneOffName_of_limit_ne :
    (limit [("min", .int 1), ("max", .int 5)] == limit [("max", .int 5), ("min", .int 1)]) = true ∧
      canonicalText (limit [("min", .int 1), ("max", .int 5)]) ≠
        canonicalText (limit [("max", .int 5), ("min", .int 1)]) ∧
      oneOffName (limit [("min", .int 1), ("max", .int 5)]) "app" defaultGeneratedPackage ≠
        oneOffName (limit [("max", .int 5), ("min", .int 1)]) "app" defaultGeneratedPackage := by
  decide +kernel

end Literal

end AnnotationWeaver
