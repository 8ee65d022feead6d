import TaskGraph.Proofs.Declaration.Interface
import TaskGraph.Proofs.Lists.Correspondence

namespace TaskGraph

/-- A type is meant by itself, by its logical name in letters of any case, and by its wire name. -/
inductive TypeSpec.Means : TypeSpec → LiteralType → Prop
  | literal (type : LiteralType) : Means (.literal type) type
  | name {type : LiteralType} {s : String} (hname : LiteralType.sameLetters type.name s) :
      Means (.named s) type
  | wireName (type : LiteralType) : Means (.named type.wireName) type

/-- What a variable declares whose type is given, or left out. -/
inductive DeclaredType.MeantBy : Option TypeSpec → DeclaredType → Prop
  | untyped : MeantBy none .untyped
  | typed {spec : TypeSpec} {type : LiteralType} (hmeans : spec.Means type) :
      MeantBy (some spec) (.typed type)

namespace LiteralType

variable {type other : LiteralType} {s : String}

theorem eq_of_sameLetters_name (htype : sameLetters type.name s)
    (hother : sameLetters other.name s) : type = other := by
  have hsame : sameLetters type.name other.name := by
    simp only [sameLetters, beq_iff_eq] at htype hother ⊢
    rw [htype, hother]
  cases type <;> cases other <;> revert hsame <;> decide

theorem eq_of_sameLetters_wireName (h : sameLetters type.name other.wireName) : type = other := by
  cases type <;> cases other <;> revert h <;> decide

theorem wireName_inj (h : type.wireName = other.wireName) : type = other := by
  cases type <;> cases other <;> revert h <;> decide

end LiteralType

namespace TypeSpec

variable {spec : TypeSpec} {type other : LiteralType}

/-- No specification means two types. -/
theorem Means.unique (htype : spec.Means type) (hother : spec.Means other) : type = other := by
  cases htype with
  | literal =>
    cases hother
    rfl
  | name hname =>
    cases hother with
    | name hother => exact LiteralType.eq_of_sameLetters_name hname hother
    | wireName => exact LiteralType.eq_of_sameLetters_wireName hname
  | wireName =>
    generalize hspec : TypeSpec.named type.wireName = spec at hother
    cases hother with
    | literal => cases hspec
    | name hother =>
      obtain rfl := TypeSpec.named.inj hspec
      exact (LiteralType.eq_of_sameLetters_wireName hother).symm
    | wireName => exact LiteralType.wireName_inj (TypeSpec.named.inj hspec)

theorem means_named_iff {s : String} :
    (TypeSpec.named s).Means type ↔
      LiteralType.sameLetters type.name s || type.wireName == s := by
  rw [Bool.or_eq_true, beq_iff_eq]
  constructor
  · intro h
    cases h with
    | name hname => exact .inl hname
    | wireName => exact .inr rfl
  · rintro (hname | rfl)
    · exact .name hname
    · exact .wireName type

/-- The lookup finds the type that is meant, and nothing else. -/
theorem resolve?_eq_some_iff : spec.resolve? = some type ↔ spec.Means type := by
  cases spec with
  | literal own =>
    constructor
    · intro h
      obtain rfl := Option.some.inj h
      exact .literal own
    · intro h
      cases h
      rfl
  | named s =>
    have hfound {found : LiteralType} (h : LiteralType.lookup s = some found) :
        (TypeSpec.named s).Means found := by
      have hspelled := List.find?_some h
      exact means_named_iff.2 hspelled
    constructor
    · intro h
      exact hfound h
    · intro h
      cases hlookup : LiteralType.lookup s with
      | none =>
        have hmem : type ∈ LiteralType.all := by cases type <;> decide
        exact absurd (means_named_iff.1 h) (List.find?_eq_none.1 hlookup type hmem)
      | some found =>
        obtain rfl := (hfound hlookup).unique h
        exact hlookup

end TypeSpec

/-- What a declaration has to observe. -/
inductive Rule where
  /-- Names that are given are given to all inputs. -/
  | nameCount
  /-- No name has a comma in it. -/
  | nameComma
  /-- No name is empty. -/
  | nameEmpty
  /-- No name is given twice. -/
  | nameRepeated
  /-- Types that are given are given to all inputs. -/
  | typeCount
  /-- The type given for the input at this position is one. -/
  | inputType (position : Nat)
  /-- The output has no blank name. -/
  | outputName
  /-- The type given for the output is one. -/
  | outputType
  /-- The cache version is not blank. -/
  | cacheVersion
  /-- The group of a secret is not blank. -/
  | secretGroup (secret : Secret)
  /-- The key of a secret, if it has one, is not blank. -/
  | secretKey (secret : Secret)

namespace Rule

/-- The rules for a function of this arity that asks for these secrets, in the order in which they
    are reported. -/
def all (arity : Nat) (secrets : List Secret) : List Rule :=
  [nameCount, nameComma, nameEmpty, nameRepeated] ++ [typeCount] ++
    (List.range arity).map inputType ++ [outputName] ++ [outputType] ++ [cacheVersion] ++
    secrets.flatMap fun secret => [secretGroup secret, secretKey secret]

/-- That options break a rule, and the issue that this gives. -/
inductive Breach (o : TaskOptions) (arity : Nat) : Rule → String → Prop
  | nameCount {names : List String} (hgiven : o.interface.paramNames = some names)
      (hcount : names.length ≠ arity) :
      Breach o arity nameCount
        ("provided paramNames do not match the parameter count; function has " ++
          toString arity ++ " parameters, " ++
          ("provided " ++ toString names.length ++ " paramNames"))
  | nameComma {names : List String} {name : String}
      (hgiven : o.interface.paramNames = some names) (hmem : name ∈ names)
      (hcomma : ',' ∈ name.toList) :
      Breach o arity nameComma "paramNames entries cannot include commas"
  | nameEmpty {names : List String} (hgiven : o.interface.paramNames = some names)
      (hempty : "" ∈ names) :
      Breach o arity nameEmpty "paramNames entries cannot be empty"
  | nameRepeated {names : List String} (hgiven : o.interface.paramNames = some names)
      (hrepeated : ¬ names.Nodup) :
      Breach o arity nameRepeated "paramNames entries cannot be duplicates"
  | typeCount {types : List TypeSpec} (hgiven : o.interface.paramTypes = some types)
      (hcount : types.length ≠ arity) :
      Breach o arity typeCount
        ("provided paramTypes do not match the parameter count; function has " ++
          toString arity ++ " parameters, " ++
          ("provided " ++ toString types.length ++ " paramTypes"))
  | inputType {types : List TypeSpec} {position : Nat} {spec : TypeSpec}
      (hgiven : o.interface.paramTypes = some types) (hspec : types[position]? = some spec)
      (hunknown : ∀ type, ¬ spec.Means type) :
      Breach o arity (inputType position)
        (spec.text ++ " is not a valid type for " ++
          ("parameter `" ++
            (o.interface.paramNames.bind (·[position]?)).getD ("input" ++ toString position) ++
            "`"))
  | outputName {name : String} (hgiven : o.interface.outputName = some name)
      (hblank : Text.trim name = "") :
      Breach o arity outputName "outputName cannot be empty"
  | outputType {spec : TypeSpec} (hgiven : o.interface.outputType = some spec)
      (hunknown : ∀ type, ¬ spec.Means type) :
      Breach o arity outputType (spec.text ++ " is not a valid type for " ++ "the output")
  | cacheVersion {version : String} (hgiven : o.cacheVersion = some version)
      (hblank : Text.trim version = "") :
      Breach o arity cacheVersion "cache_version cannot be empty"
  | secretGroup {secret : Secret} (hblank : Text.trim secret.group = "") :
      Breach o arity (secretGroup secret)
        (secret.text ++ " is not a valid secret, group must be non-empty")
  | secretKey {secret : Secret} {key : String} (hgiven : secret.key = some key)
      (hblank : Text.trim key = "") :
      Breach o arity (secretKey secret)
        (secret.text ++ " is not a valid secret, key must be non-empty when given")

def Broken (o : TaskOptions) (arity : Nat) (rule : Rule) : Prop := ∃ text, Breach o arity rule text

/-- The issues for these rules: one for each that is broken, in their order. -/
inductive Issues (o : TaskOptions) (arity : Nat) : List Rule → List String → Prop
  | nil : Issues o arity [] []
  | broken {rule : Rule} {rules : List Rule} {text : String} {texts : List String}
      (hbreach : Breach o arity rule text) (hrest : Issues o arity rules texts) :
      Issues o arity (rule :: rules) (text :: texts)
  | kept {rule : Rule} {rules : List Rule} {texts : List String}
      (hkept : ¬ Broken o arity rule) (hrest : Issues o arity rules texts) :
      Issues o arity (rule :: rules) texts

variable {o : TaskOptions} {arity : Nat} {rule : Rule} {text other : String}
  {rules later : List Rule} {texts others : List String}

theorem Breach.unique (htext : Breach o arity rule text) (hother : Breach o arity rule other) :
    text = other := by
  cases htext <;> cases hother <;> simp_all

namespace Issues

theorem unique (htexts : Issues o arity rules texts) (hothers : Issues o arity rules others) :
    texts = others := by
  induction htexts generalizing others with
  | nil =>
    cases hothers
    rfl
  | broken hbreach _ ih =>
    cases hothers with
    | broken hother hrest => rw [hbreach.unique hother, ih hrest]
    | kept hkept => exact absurd ⟨_, hbreach⟩ hkept
  | kept hkept _ ih =>
    cases hothers with
    | broken hbreach => exact absurd ⟨_, hbreach⟩ hkept
    | kept _ hrest => exact ih hrest

theorem eq_nil_iff (h : Issues o arity rules texts) :
    texts = [] ↔ ∀ rule ∈ rules, ¬ rule.Broken o arity := by
  induction h with
  | nil => simp
  | broken hbreach _ _ => simpa using fun hkept => absurd ⟨_, hbreach⟩ hkept
  | kept hkept _ ih => simp [ih, hkept]

theorem append (h : Issues o arity rules texts) (hlater : Issues o arity later others) :
    Issues o arity (rules ++ later) (texts ++ others) := by
  induction h with
  | nil => exact hlater
  | broken hbreach _ ih => exact .broken hbreach ih
  | kept hkept _ ih => exact .kept hkept ih

theorem flatMap {α : Type} {f : α → List Rule} {g : α → List String}
    (h : ∀ a, Issues o arity (f a) (g a)) (as : List α) :
    Issues o arity (as.flatMap f) (as.flatMap g) := by
  induction as with
  | nil => exact .nil
  | cons a as ih => exact (h a).append ih

/-- No issues come from rules that are not broken. -/
theorem of_kept (h : ∀ rule ∈ rules, ¬ rule.Broken o arity) : Issues o arity rules [] := by
  induction rules with
  | nil => exact .nil
  | cons rule rules ih =>
    obtain ⟨hrule, hrules⟩ := List.forall_mem_cons.1 h
    exact .kept hrule (ih hrules)

/-- The issue of one rule, where it is checked what breaks it. -/
theorem ite {p : Prop} [Decidable p] (hbreach : p → Breach o arity rule text)
    (hbroken : Broken o arity rule → p) : Issues o arity [rule] (if p then [text] else []) := by
  split
  · next hp => exact .broken (hbreach hp) .nil
  · next hp => exact .kept (fun h => hp (hbroken h)) .nil

/-- The issue of one rule, where it is checked what it asks for. -/
theorem ite_nil {p : Prop} [Decidable p] (hbreach : ¬ p → Breach o arity rule text)
    (hbroken : Broken o arity rule → ¬ p) : Issues o arity [rule] (if p then [] else [text]) := by
  rw [← ite_not]
  exact ite hbreach hbroken

/-- The issue of a text that is given and blank. -/
theorem of_blank {given : Option String}
    (hbreach : ∀ s, given = some s → Text.trim s = "" → Breach o arity rule text)
    (hbroken : Broken o arity rule → ∃ s, given = some s ∧ Text.trim s = "") :
    Issues o arity [rule] (if given.any Text.isBlank then [text] else []) := by
  refine ite ?_ ?_
  · intro h
    obtain ⟨s, hgiven, hblank⟩ := (Option.any_eq_true _ _).1 h
    exact hbreach s hgiven (Text.trim_eq_empty_iff.2 hblank)
  · intro h
    obtain ⟨s, hgiven, hblank⟩ := hbroken h
    rw [hgiven]
    exact Text.trim_eq_empty_iff.1 hblank

end Issues

end Rule

namespace InterfaceOptions

open Rule

variable {o : TaskOptions} {arity : Nat}

theorem inputSpec?_eq_some_iff {o : InterfaceOptions} {position : Nat} {spec : TypeSpec} :
    o.inputSpec? position = some spec ↔
      ∃ types, o.paramTypes = some types ∧ types[position]? = some spec := by
  cases htypes : o.paramTypes with
  | none => simp [inputSpec?, htypes]
  | some types => simp [inputSpec?, htypes]

/-- A list of names that is too short leaves the later inputs with the names of their positions. -/
theorem inputName_eq (o : InterfaceOptions) (position : Nat) :
    o.inputName position =
      (o.paramNames.bind (·[position]?)).getD ("input" ++ toString position) := by
  unfold inputName
  cases o.paramNames with
  | none => rfl
  | some names => rfl

theorem any_contains_comma_iff {names : List String} :
    names.any (fun n => n.contains ',') ↔ ∃ name ∈ names, ',' ∈ name.toList := by
  simp

theorem any_isEmpty_iff {names : List String} : names.any (fun n => n.isEmpty) ↔ "" ∈ names := by
  simp

theorem issues_nameIssues {names : List String} (hgiven : o.interface.paramNames = some names) :
    Issues o arity [nameCount, nameComma, nameEmpty, nameRepeated] (nameIssues arity names) := by
  unfold nameIssues
  refine (((?_ : Issues o arity [nameCount] _).append (?_ : Issues o arity [nameComma] _)).append
    (?_ : Issues o arity [nameEmpty] _)).append (?_ : Issues o arity [nameRepeated] _)
  · refine .ite_nil (fun h => .nameCount hgiven h) ?_
    rintro ⟨_, hbreach⟩
    cases hbreach with
    | nameCount hnames hcount =>
      cases hgiven.symm.trans hnames
      exact hcount
  · refine .ite ?_ ?_
    · intro h
      obtain ⟨name, hmem, hcomma⟩ := any_contains_comma_iff.1 h
      exact .nameComma hgiven hmem hcomma
    · rintro ⟨_, hbreach⟩
      cases hbreach with
      | nameComma hnames hmem hcomma =>
        cases hgiven.symm.trans hnames
        exact any_contains_comma_iff.2 ⟨_, hmem, hcomma⟩
  · refine .ite (fun h => .nameEmpty hgiven (any_isEmpty_iff.1 h)) ?_
    rintro ⟨_, hbreach⟩
    cases hbreach with
    | nameEmpty hnames hempty =>
      cases hgiven.symm.trans hnames
      exact any_isEmpty_iff.2 hempty
  · refine .ite_nil (fun h => .nameRepeated hgiven h) ?_
    rintro ⟨_, hbreach⟩
    cases hbreach with
    | nameRepeated hnames hrepeated =>
      cases hgiven.symm.trans hnames
      exact hrepeated

theorem issues_names (o : TaskOptions) (arity : Nat) :
    Issues o arity [nameCount, nameComma, nameEmpty, nameRepeated]
      ((o.interface.paramNames.map (nameIssues arity)).getD []) := by
  cases hgiven : o.interface.paramNames with
  | some names => exact issues_nameIssues hgiven
  | none =>
    apply Issues.of_kept
    rintro rule hrule ⟨_, hbreach⟩
    cases hbreach <;> simp_all

theorem issues_typeCount (o : TaskOptions) (arity : Nat) :
    Issues o arity [typeCount] ((o.interface.paramTypes.map (typeCountIssues arity)).getD []) := by
  cases hgiven : o.interface.paramTypes with
  | some types =>
    refine .ite_nil (fun h => .typeCount hgiven h) ?_
    rintro ⟨_, hbreach⟩
    cases hbreach with
    | typeCount htypes hcount =>
      cases hgiven.symm.trans htypes
      exact hcount
  | none =>
    apply Issues.of_kept
    rintro rule hrule ⟨_, hbreach⟩
    cases hbreach <;> simp_all

/-- The issue of a type that is given, as it is found for an input or for the output. -/
theorem issues_typeIssues {rule : Rule} {given : Option TypeSpec} {place : String}
    (hbreach : ∀ spec, given = some spec → (∀ type, ¬ spec.Means type) →
      Breach o arity rule (spec.text ++ " is not a valid type for " ++ place))
    (hbroken : rule.Broken o arity → ∃ spec, given = some spec ∧ ∀ type, ¬ spec.Means type) :
    Issues o arity [rule] (typeIssues given place) := by
  cases given with
  | none =>
    refine .kept ?_ .nil
    intro h
    obtain ⟨spec, hspec, -⟩ := hbroken h
    cases hspec
  | some spec =>
    refine .ite_nil ?_ ?_
    · intro h
      refine hbreach spec rfl fun type hmeans => h ?_
      rw [TypeSpec.resolve?_eq_some_iff.2 hmeans]
      rfl
    · intro h hresolved
      obtain ⟨_, hspec, hunknown⟩ := hbroken h
      cases hspec
      obtain ⟨type, htype⟩ := Option.isSome_iff_exists.1 hresolved
      exact hunknown type (TypeSpec.resolve?_eq_some_iff.1 htype)

theorem issues_inputType (o : TaskOptions) (arity position : Nat) :
    Issues o arity [inputType position]
      (typeIssues (o.interface.inputSpec? position)
        ("parameter `" ++ o.interface.inputName position ++ "`")) := by
  rw [inputName_eq]
  apply issues_typeIssues
  · intro spec hspec hunknown
    obtain ⟨types, hgiven, hspec⟩ := inputSpec?_eq_some_iff.1 hspec
    exact .inputType hgiven hspec hunknown
  · rintro ⟨_, hbreach⟩
    cases hbreach with
    | inputType hgiven hspec hunknown =>
      exact ⟨_, inputSpec?_eq_some_iff.2 ⟨_, hgiven, hspec⟩, hunknown⟩

theorem issues_outputName (o : TaskOptions) (arity : Nat) :
    Issues o arity [.outputName] o.interface.outputNameIssues := by
  refine .of_blank (fun name hgiven hblank => .outputName hgiven hblank) ?_
  rintro ⟨_, hbreach⟩
  cases hbreach with
  | outputName hgiven hblank => exact ⟨_, hgiven, hblank⟩

theorem issues_outputType (o : TaskOptions) (arity : Nat) :
    Issues o arity [.outputType] (typeIssues o.interface.outputType "the output") := by
  apply issues_typeIssues
  · intro spec hgiven hunknown
    exact .outputType hgiven hunknown
  · rintro ⟨_, hbreach⟩
    cases hbreach with
    | outputType hgiven hunknown => exact ⟨_, hgiven, hunknown⟩

end InterfaceOptions

namespace Report

variable {report rest : Report} {text : String}

theorem errors_append : errors (report ++ rest) = errors report ++ errors rest :=
  List.filterMap_append

theorem errors_ite_error {p : Prop} [Decidable p] :
    errors (if p then [.error text] else []) = if p then [text] else [] := by
  split <;> rfl

end Report

theorem Secret.issues_findings (o : TaskOptions) (arity : Nat) (secret : Secret) :
    Rule.Issues o arity [.secretGroup secret, .secretKey secret]
      (Report.errors secret.findings) := by
  unfold findings
  rw [Report.errors_append, Report.errors_ite_error]
  refine (?_ : Rule.Issues o arity [.secretGroup secret] _).append ?_
  · refine .ite (fun h => .secretGroup (Text.trim_eq_empty_iff.2 h)) ?_
    rintro ⟨_, hbreach⟩
    cases hbreach with
    | secretGroup hblank => exact Text.trim_eq_empty_iff.1 hblank
  · cases hkey : secret.key with
    | some key =>
      rw [Report.errors_ite_error]
      refine .ite (fun h => .secretKey hkey (Text.trim_eq_empty_iff.2 h)) ?_
      rintro ⟨_, hbreach⟩
      cases hbreach with
      | secretKey hgiven hblank =>
        cases hkey.symm.trans hgiven
        exact Text.trim_eq_empty_iff.1 hblank
    | none =>
      -- A warning is no error.
      refine .kept ?_ .nil
      rintro ⟨_, hbreach⟩
      cases hbreach with
      | secretKey hgiven => cases hkey.symm.trans hgiven

theorem TaskOptions.issues_cacheVersion (o : TaskOptions) (arity : Nat) :
    Rule.Issues o arity [.cacheVersion]
      (if o.cacheVersion.any Text.isBlank then ["cache_version cannot be empty"] else []) := by
  refine .of_blank (fun version hgiven hblank => .cacheVersion hgiven hblank) ?_
  rintro ⟨_, hbreach⟩
  cases hbreach with
  | cacheVersion hgiven hblank => exact ⟨_, hgiven, hblank⟩

/-- The errors that are found are the issues for the rules. -/
theorem TaskOptions.issues_errors_findings (o : TaskOptions) (arity : Nat) :
    Rule.Issues o arity (Rule.all arity o.secrets) (Report.errors (o.findings arity)) := by
  have hinputs := Rule.Issues.flatMap (InterfaceOptions.issues_inputType o arity) (List.range arity)
  have hsecrets := Rule.Issues.flatMap (Secret.issues_findings o arity) o.secrets
  unfold findings Rule.all
  rw [Report.errors_append, Report.errors_append, Report.errors_map_error,
    Report.errors_ite_error, List.map_eq_flatMap]
  refine .append (.append ?_ (issues_cacheVersion o arity)) ?_
  · exact ((((InterfaceOptions.issues_names o arity).append
      (InterfaceOptions.issues_typeCount o arity)).append hinputs).append
      (InterfaceOptions.issues_outputName o arity)).append
      (InterfaceOptions.issues_outputType o arity)
  · unfold Report.errors
    rw [List.filterMap_flatMap]
    exact hsecrets

end TaskGraph
