import AnnotationWeaver.Proofs.WireForms

/-!
Decoding undoes encoding. Keys, declarations, beans and observers are records and lists of types, values and
annotations, so they are read back as these are: from either text, whatever the order of members, the component
kinds of empty arrays, the characters of strings and the integers are, and whether or not what is optional is
there.
-/
namespace AnnotationWeaver

open Json (Restores depthLimit)

/-- `x` is got from the compact and from the pretty text of a JSON value. -/
structure RoundTrips {α : Type} (decode : Json → Option α) (j : Json) (x : α) : Prop where
  compact : (Json.read? j.compact).bind decode = some x
  pretty : (Json.read? j.pretty).bind decode = some x

theorem Json.Restores.roundTrips {α : Type} {decode : Json → Option α} {j : Json} {x : α}
    (restores : Restores depthLimit decode j x) (shallow : j.nesting ≤ depthLimit) : RoundTrips decode j x where
  compact := by
    rw [Json.compact, Json.read?_write _ restores.exact shallow]
    exact restores.gives shallow
  pretty := by
    rw [Json.pretty, Json.read?_write _ restores.exact shallow]
    exact restores.gives shallow

/-! ## What is portable -/

/-- Every name of a type in the key is tidy. -/
def MethodKey.isTidy (k : MethodKey) : Bool := k.owner.isTidy && k.parameters.all (·.isTidy)

def DeclKey.isTidy : DeclKey → Bool
  | .type name => name.isTidy
  | .method key => key.isTidy
  | .field key => key.owner.isTidy
  | .parameter key => key.method.isTidy

/-- The text of the parameter loses nothing, as its names are tidy and its annotations portable. -/
def ParamDecl.isPortable (p : ParamDecl) : Bool :=
  p.key.method.isTidy && p.type.isTidy && p.annotations.all (·.isPortable)

def MethodDecl.isPortable (m : MethodDecl) : Bool :=
  m.key.isTidy && m.parameters.all (·.isPortable) && m.returns.isTidy && m.annotations.all (·.isPortable) &&
    m.default?.all (·.isPortable)

def FieldDecl.isPortable (f : FieldDecl) : Bool :=
  f.key.owner.isTidy && f.type.isTidy && f.annotations.all (·.isPortable)

def Bean.isPortable (b : Bean) : Bool :=
  b.implementation.isTidy && b.declaringClass.isTidy && b.scope.isTidy && b.types.all (·.isTidy) &&
    b.qualifiers.all (·.isPortable)

def Observer.isPortable (o : Observer) : Bool :=
  o.declaringClass.isTidy && o.method.all (·.isTidy) && o.observed.isTidy && o.qualifiers.all (·.isPortable)

/-! ## Parts of records -/

theorem Ty.restores_list {ts : List Ty} (tidy : ∀ t ∈ ts, t.isTidy = true) (held : Bool) :
    Restores depthLimit (Json.list? (Ty.ofJson? held)) (.list Ty.toJson ts) ts :=
  (Restores.list fun t listed => Ty.restores t (tidy t listed) nestingLimit held).mono (by decide)

theorem Ty.restores_ofJson? {t : Ty} (tidy : t.isTidy = true) (held : Bool) :
    Restores depthLimit (Ty.ofJson? held) t.toJson t :=
  (Ty.restores t tidy nestingLimit held).mono (by decide)

theorem Value.toJson_ne_null (v : Value) : v.toJson ≠ .null := by
  intro null
  cases v <;> cases null

theorem Value.restores_ofJson? {v : Value} (portable : v.isPortable = true) :
    Restores depthLimit Value.ofJson? v.toJson v :=
  (Value.isRestored portable nestingLimit false (Nat.le_refl _)).mono (by decide)

theorem Annotation.restores_ofJson? {a : Annotation} (portable : a.isPortable = true) (held : Bool) :
    Restores depthLimit (ofJson? held) a.toJson a :=
  (restores portable held (Nat.le_refl _)).mono (by decide)

theorem restores_annotations {xs : List Annotation} (portable : ∀ a ∈ xs, a.isPortable = true) :
    Restores depthLimit annotationsOfJson? (annotationsJson xs) xs :=
  (Restores.list fun a listed => Annotation.restores (portable a listed) false (Nat.le_refl nestingLimit)).mono (by decide)

theorem MethodKey.restores {k : MethodKey} (tidy : k.isTidy = true) (held : Bool) :
    Restores depthLimit (MethodKey.ofJson? held) k.toJson k := by
  simp only [isTidy, Bool.and_eq_true, List.all_eq_true] at tidy
  have owner := TypeName.restores tidy.1 depthLimit
  have parameters := Ty.restores_list tidy.2 held
  refine Restores.record ?exact fun shallow => ?gives
  case exact => simp [owner.exact, parameters.exact]
  case gives =>
    simp only [List.forall_mem_cons] at shallow
    rw [ofJson?, Json.record?_object (by rfl) (by decide)]
    simp only [List.map, owner.gives shallow.1, Json.string?, parameters.gives shallow.2.2.1]
    rfl

theorem FieldKey.restores {k : FieldKey} (tidy : k.owner.isTidy = true) : Restores depthLimit FieldKey.ofJson? k.toJson k := by
  have owner := TypeName.restores tidy depthLimit
  refine Restores.record ?exact fun shallow => ?gives
  case exact => simp [owner.exact]
  case gives =>
    simp only [List.forall_mem_cons] at shallow
    rw [ofJson?, Json.record?_object (by rfl) (by decide)]
    simp only [List.map, owner.gives shallow.1, Json.string?]
    rfl

theorem ParamKey.restores {k : ParamKey} (tidy : k.method.isTidy = true) (held : Bool) :
    Restores depthLimit (ParamKey.ofJson? held) k.toJson k := by
  have method := MethodKey.restores tidy held
  have position := Json.restores_uint16 depthLimit k.position
  refine Restores.record ?exact fun shallow => ?gives
  case exact => simp [method.exact, position.exact]
  case gives =>
    simp only [List.forall_mem_cons] at shallow
    rw [ofJson?, Json.record?_object (by rfl) (by decide)]
    simp only [List.map, method.gives shallow.1, position.gives shallow.2.1]
    rfl

namespace DeclKey

/-- A key whose content is read back by what its label calls for. -/
theorem restores_tagged {α : Type} {label : String} {content : Json} {x : α} {decode : Json → Option α} (wrap : α → DeclKey)
    (inner : Restores depthLimit decode content x)
    (branch : ofJson? (.tagged "kind" label "key" content) = (decode content).map wrap) :
    Restores depthLimit ofJson? (.tagged "kind" label "key" content) (wrap x) := by
  refine Restores.record ?exact fun shallow => ?gives
  case exact => simp [inner.exact]
  case gives => exact branch.trans (congrArg (Option.map wrap) (inner.gives (shallow _ (.tail _ (.head _)))))

theorem restores {k : DeclKey} (tidy : k.isTidy = true) : Restores depthLimit ofJson? k.toJson k := by
  cases k with
  | type name => exact restores_tagged type (TypeName.restores tidy depthLimit) rfl
  | method key => exact restores_tagged method (MethodKey.restores tidy false) rfl
  | field key => exact restores_tagged field (FieldKey.restores tidy) rfl
  | parameter key => exact restores_tagged parameter (ParamKey.restores tidy false) rfl

end DeclKey

theorem restores_name (name : Option String) :
    Restores depthLimit (fun j => Json.optional? Json.string? (some j)) (.option .str name) name :=
  Restores.option (fun s _ => Json.restores_str depthLimit s) fun _ null => by cases null

theorem ParamDecl.restores {p : ParamDecl} (portable : p.isPortable = true) :
    Restores depthLimit ParamDecl.ofJson? p.toJson p := by
  simp only [isPortable, Bool.and_eq_true, List.all_eq_true] at portable
  have key := ParamKey.restores portable.1.1 false
  have type := Ty.restores_ofJson? portable.1.2 false
  have name := restores_name p.name
  have annotations := restores_annotations portable.2
  refine Restores.record ?exact fun shallow => ?gives
  case exact => simp [key.exact, type.exact, name.exact, annotations.exact]
  case gives =>
    simp only [List.forall_mem_cons] at shallow
    obtain ⟨first, second, third, fourth, -⟩ := shallow
    rw [ofJson?, Json.record?_object (by rfl) (by decide)]
    simp only [List.map, key.gives first, type.gives second, name.gives third, annotations.gives fourth]
    rfl

theorem MethodDecl.restores {m : MethodDecl} (portable : m.isPortable = true) :
    Restores depthLimit MethodDecl.ofJson? m.toJson m := by
  simp only [isPortable, Bool.and_eq_true, List.all_eq_true, Option.all_eq_true] at portable
  obtain ⟨⟨⟨⟨owner, inside⟩, result⟩, carried⟩, preset⟩ := portable
  have key := MethodKey.restores owner false
  have parameters := (Restores.list fun p listed => ParamDecl.restores (inside p listed)).mono (Nat.le_succ _)
  have returns := Ty.restores_ofJson? result false
  have annotations := restores_annotations carried
  have default := Restores.option (fun v set => Value.restores_ofJson? (preset v set)) Value.toJson_ne_null
  refine Restores.record ?exact fun shallow => ?gives
  case exact => simp [key.exact, parameters.exact, returns.exact, annotations.exact, default.exact]
  case gives =>
    simp only [List.forall_mem_cons] at shallow
    obtain ⟨first, second, third, fourth, fifth, -⟩ := shallow
    rw [ofJson?, Json.record?_object (by rfl) (by decide)]
    simp only [List.map, key.gives first, parameters.gives second, returns.gives third, annotations.gives fourth,
      default.gives fifth, Json.bool?]
    rfl

theorem FieldDecl.restores {f : FieldDecl} (portable : f.isPortable = true) :
    Restores depthLimit FieldDecl.ofJson? f.toJson f := by
  simp only [isPortable, Bool.and_eq_true, List.all_eq_true] at portable
  have key := FieldKey.restores portable.1.1
  have type := Ty.restores_ofJson? portable.1.2 false
  have annotations := restores_annotations portable.2
  refine Restores.record ?exact fun shallow => ?gives
  case exact => simp [key.exact, type.exact, annotations.exact]
  case gives =>
    simp only [List.forall_mem_cons] at shallow
    obtain ⟨first, second, third, -⟩ := shallow
    rw [ofJson?, Json.record?_object (by rfl) (by decide)]
    simp only [List.map, key.gives first, type.gives second, annotations.gives third, Json.bool?]
    rfl

theorem BeanKind.restores (kind : BeanKind) : Restores depthLimit (BeanKind.ofJson? false) (.str kind.label) kind := by
  unfold BeanKind.ofJson?
  exact Json.restores_choice BeanKind.all BeanKind.label (by decide) (by cases kind <;> decide) depthLimit false

theorem Bean.restores {b : Bean} (portable : b.isPortable = true) : Restores depthLimit Bean.ofJson? b.toJson b := by
  simp only [isPortable, Bool.and_eq_true, List.all_eq_true] at portable
  obtain ⟨⟨⟨⟨implemented, declared⟩, lived⟩, typed⟩, qualified⟩ := portable
  have kind := BeanKind.restores b.kind
  have implementation := TypeName.restores implemented depthLimit
  have declaringClass := TypeName.restores declared depthLimit
  have scope := TypeName.restores lived depthLimit
  have types := Ty.restores_list typed false
  have qualifiers := restores_annotations qualified
  have name := restores_name b.name
  have priority : Restores depthLimit (fun j => Json.optional? Json.int32? (some j)) (.option int32Json b.priority)
      b.priority :=
    Restores.option (fun n _ => Json.restores_int32 depthLimit n) fun _ null => by cases null
  refine Restores.record ?exact fun shallow => ?gives
  case exact =>
    simp [kind.exact, implementation.exact, declaringClass.exact, scope.exact, types.exact, qualifiers.exact, name.exact,
      priority.exact]
  case gives =>
    simp only [List.forall_mem_cons] at shallow
    obtain ⟨-, second, third, fourth, fifth, sixth, seventh, eighth, ninth, -⟩ := shallow
    rw [ofJson?, Json.record?_object (by rfl) (by decide)]
    simp only [List.map, Json.string?, kind.gives second, implementation.gives third, declaringClass.gives fourth,
      scope.gives fifth, types.gives sixth, qualifiers.gives seventh, name.gives eighth, priority.gives ninth, Json.bool?]
    rfl

theorem Observer.restores {o : Observer} (portable : o.isPortable = true) :
    Restores depthLimit Observer.ofJson? o.toJson o := by
  simp only [isPortable, Bool.and_eq_true, List.all_eq_true, Option.all_eq_true] at portable
  obtain ⟨⟨⟨declared, bound⟩, watched⟩, qualified⟩ := portable
  have declaringClass := TypeName.restores declared depthLimit
  have method := Restores.option (fun k set => MethodKey.restores (bound k set) false) fun k null => by cases null
  have observed := Ty.restores_ofJson? watched false
  have qualifiers := restores_annotations qualified
  have priority := Json.restores_int32 depthLimit o.priority
  refine Restores.record ?exact fun shallow => ?gives
  case exact =>
    simp [declaringClass.exact, method.exact, observed.exact, qualifiers.exact, int32Json, priority.exact]
  case gives =>
    simp only [List.forall_mem_cons] at shallow
    obtain ⟨-, second, third, fourth, fifth, sixth, -⟩ := shallow
    rw [ofJson?, Json.record?_object (by rfl) (by decide)]
    simp only [List.map, Json.string?, declaringClass.gives second, method.gives third, observed.gives fourth,
      qualifiers.gives fifth, int32Json, priority.gives sixth, Json.bool?]
    rfl

/-- Decoding undoes encoding: a type, value, annotation, key, method, field, bean or observer with tidy names of types
    and without floating-point numbers is got back from its compact and from its pretty text, as long as the containers
    in it are not nested deeper than the reader goes. -/
theorem decoding_undoes_encoding :
    (∀ t : Ty, t.isTidy = true → t.toJson.nesting ≤ depthLimit → RoundTrips (Ty.ofJson? false) t.toJson t) ∧
      (∀ v : Value, v.isPortable = true → v.toJson.nesting ≤ depthLimit → RoundTrips Value.ofJson? v.toJson v) ∧
      (∀ a : Annotation, a.isPortable = true → a.toJson.nesting ≤ depthLimit →
        RoundTrips (fun j => Annotation.ofJson? false j) a.toJson a) ∧
      (∀ k : DeclKey, k.isTidy = true → k.toJson.nesting ≤ depthLimit → RoundTrips DeclKey.ofJson? k.toJson k) ∧
      (∀ m : MethodDecl, m.isPortable = true → m.toJson.nesting ≤ depthLimit → RoundTrips MethodDecl.ofJson? m.toJson m) ∧
      (∀ f : FieldDecl, f.isPortable = true → f.toJson.nesting ≤ depthLimit → RoundTrips FieldDecl.ofJson? f.toJson f) ∧
      (∀ b : Bean, b.isPortable = true → b.toJson.nesting ≤ depthLimit → RoundTrips Bean.ofJson? b.toJson b) ∧
      ∀ o : Observer, o.isPortable = true → o.toJson.nesting ≤ depthLimit → RoundTrips Observer.ofJson? o.toJson o :=
  ⟨fun _ tidy => (Ty.restores_ofJson? tidy false).roundTrips,
    fun _ portable => (Value.restores_ofJson? portable).roundTrips,
    fun _ portable => Json.Restores.roundTrips <| Annotation.restores_ofJson? portable false,
    fun _ tidy => (DeclKey.restores tidy).roundTrips,
    fun _ portable => (MethodDecl.restores portable).roundTrips,
    fun _ portable => (FieldDecl.restores portable).roundTrips,
    fun _ portable => (Bean.restores portable).roundTrips,
    fun _ portable => (Observer.restores portable).roundTrips⟩

/-- An annotation with the bounds of an integer width, an array without elements, and characters that are escaped. -/
def extremes : Annotation :=
  ⟨⟨"app.Extremes"⟩,
    [⟨"bounds", .array .long [.long Int64.minValue, .long Int64.maxValue]⟩, ⟨"bytes", .array .byte []⟩,
      ⟨"text", .string "\"\\\n\x01\u2028"⟩, ⟨"quote", .char '"'⟩, ⟨"marker", .nested (.marker ⟨"app.Marker"⟩)⟩,
      ⟨"type", .classLiteral (.parameterized ⟨"java.util.List"⟩ [.array (.named ⟨"app.Part"⟩)])⟩]⟩

/-- A method whose parameter has no name. -/
def assemble : MethodOutline :=
  ⟨"assemble", [⟨.named ⟨"app.Part"⟩, none, [extremes]⟩], .void, [extremes], some (.nested extremes), false⟩

theorem decoding_undoes_encoding_of_extremes :
    extremes.isPortable = true ∧ (assemble.declare ⟨"app.Whole"⟩).isPortable = true ∧
      RoundTrips (fun j => Annotation.ofJson? false j) extremes.toJson extremes ∧
      RoundTrips MethodDecl.ofJson? (assemble.declare ⟨"app.Whole"⟩).toJson (assemble.declare ⟨"app.Whole"⟩) := by
  have portable : extremes.isPortable = true := by decide +kernel
  have portable' : (assemble.declare ⟨"app.Whole"⟩).isPortable = true := by decide +kernel
  obtain ⟨-, -, annotation, -, method, -⟩ := decoding_undoes_encoding
  exact ⟨portable, portable', annotation _ portable (by decide +kernel), method _ portable' (by decide +kernel)⟩

end AnnotationWeaver
