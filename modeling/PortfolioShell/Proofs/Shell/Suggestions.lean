import PortfolioShell.Proofs.Text.Beginnings
import PortfolioShell.Proofs.Text.LetterCase
import PortfolioShell.Proofs.Tree.Paths
import PortfolioShell.Shell.Suggestion
import PortfolioShell.Tree.Sample

/-! # What is suggested

A line that is not blank is its first word, the blanks behind it and a rest. From these and from the children of
the node at the location it follows what is offered (`Offers`), and `suggest` gives the first of that, as many as are
asked for. Nothing is offered twice: siblings have different names, and none of them is `..` or `~`. A line of several words that begins with
no verb that takes a name is completed to nothing, because no name holds a blank, and none does in lower case. The
beginning of a name is completed to that name (`name_offered_iff`), unless it ends in a capital sigma inside of a word. -/

namespace PortfolioShell.Suggestion

open Text

variable {tree : ContentTree} {l : Location} {typed word gap rest name : String}

/-! ### First occurrences -/

theorem firstOccurrences_filter (keep : String → Bool) (names : List String) :
    firstOccurrences (names.filter keep) = (firstOccurrences names).filter keep := by
  induction names with
  | nil => rfl
  | cons name rest ih =>
    by_cases kept : keep name = true
    · rw [List.filter_cons_of_pos kept, firstOccurrences, firstOccurrences, List.filter_cons_of_pos kept, ih, List.filter_comm]
    · rw [List.filter_cons_of_neg kept, firstOccurrences, List.filter_cons_of_neg kept, ih, List.filter_filter]
      refine List.filter_congr fun other _ => ?_
      by_cases same : other = name <;> simp_all

theorem firstOccurrences_eq_eraseDups : ∀ names : List String, firstOccurrences names = names.eraseDups
  | [] => rfl
  | name :: rest => by
    have others := firstOccurrences_eq_eraseDups (rest.filter (· ≠ name))
    rw [firstOccurrences, List.eraseDups_cons, ← firstOccurrences_filter, others]
    congr 2
    refine List.filter_congr fun other _ => ?_
    by_cases same : other = name <;> simp [same]
termination_by names => names.length
decreasing_by
  have shorter := List.length_filter_le (· ≠ name) rest
  simp only [List.length_cons]
  omega

theorem nodup_firstOccurrences (names : List String) : (firstOccurrences names).Nodup := by
  induction names with
  | nil => exact List.nodup_nil
  | cons name rest ih => exact List.nodup_cons.mpr ⟨by simp, ih.filter _⟩

/-! ### A line taken apart -/

/-- Blanks at its start aside, the line is its first word, the blanks behind that, and the rest as it stands. -/
structure Parts (typed word gap rest : String) : Prop where
  text : ∃ lead : String, (∀ c ∈ lead.toList, isBlank c = true) ∧ typed = lead ++ word ++ gap ++ rest
  filled : word ≠ ""
  solid : ∀ c ∈ word.toList, isBlank c = false
  between : ∀ c ∈ gap.toList, isBlank c = true
  parted : rest ≠ "" → gap ≠ ""
  first : ∀ c ∈ rest.toList.head?, isBlank c = false

theorem parts_of_word {lead word after : List Char} (before : ∀ c ∈ lead, isBlank c = true) (filled : word ≠ [])
    (solid : ∀ c ∈ word, isBlank c = false) (cut : ∀ c ∈ after.head?, isBlank c = true) :
    Parts (String.ofList (lead ++ word ++ after)) (String.ofList word) (String.ofList (after.takeWhile isBlank))
      (String.ofList (dropStart after)) where
  text := by
    refine ⟨String.ofList lead, by rwa [String.toList_ofList], ?_⟩
    have behind : after.takeWhile isBlank ++ dropStart after = after := List.takeWhile_append_dropWhile
    conv_lhs => rw [← behind]
    simp only [String.ofList_append, String.append_assoc]
  filled := mt String.ofList_eq_empty_iff.mp filled
  solid := by rwa [String.toList_ofList]
  between := by
    rw [String.toList_ofList]
    exact fun c member => List.mem_takeWhile_imp member
  parted more := by
    -- the first character behind the word is a blank
    cases after with
    | nil => exact absurd rfl more
    | cons c rest => simp [cut c rfl]
  first := by
    rw [String.toList_ofList]
    exact first_dropStart after

/-- Every line that is not blank can be taken apart. -/
theorem exists_parts (filled : ¬ ∀ c ∈ typed.toList, isBlank c = true) : ∃ word gap rest, Parts typed word gap rest := by
  have start : dropStart typed.toList ≠ [] := fun none => filled (List.dropWhile_eq_nil_iff.mp none)
  have before : ∀ c ∈ typed.toList.takeWhile isBlank, isBlank c = true := fun _ => List.mem_takeWhile_imp
  have word : firstWord (dropStart typed.toList) ≠ [] := firstWord_ne_nil start (first_dropStart typed.toList)
  have solid : ∀ c ∈ firstWord (dropStart typed.toList), isBlank c = false := solid_firstWord _
  have whole : typed.toList.takeWhile isBlank ++ firstWord (dropStart typed.toList) ++ afterWord (dropStart typed.toList) =
      typed.toList := by
    rw [List.append_assoc, firstWord_append_afterWord, dropStart, List.takeWhile_append_dropWhile]
  have parts := parts_of_word before word solid (blank_afterWord (dropStart typed.toList))
  rw [whole, String.ofList_toList] at parts
  exact ⟨_, _, _, parts⟩

section Parts

variable (parts : Parts typed word gap rest)

include parts

theorem Parts.rest_eq (alone : gap = "") : rest = "" :=
  by_contra fun more => parts.parted more alone

theorem Parts.dropStart_eq : dropStart typed.toList = word.toList ++ (gap.toList ++ rest.toList) := by
  obtain ⟨lead, blank, text⟩ := parts.text
  have letters : word.toList ≠ [] := by simpa using parts.filled
  have chars : typed.toList = lead.toList ++ (word.toList ++ (gap.toList ++ rest.toList)) := by simp [text]
  rw [chars, dropStart_append_of_blank blank, dropStart_of_first (first_append_of_solid letters parts.solid _)]

theorem Parts.blank_head : ∀ c ∈ (gap.toList ++ rest.toList).head?, isBlank c = true := by
  intro c h
  by_cases alone : gap = ""
  · simp [alone, parts.rest_eq alone] at h
  · rw [List.head?_append_of_ne_nil _ (by simpa using alone)] at h
    exact parts.between c (List.mem_of_mem_head? h)

theorem Parts.splitWord?_eq : splitWord? (word.toList ++ (gap.toList ++ rest.toList)) =
    if gap = "" then none else some (word.toList, rest.toList) := by
  rw [splitWord?, afterWord_append parts.solid parts.blank_head, firstWord_append parts.solid parts.blank_head]
  by_cases alone : gap = ""
  · simp [alone, parts.rest_eq alone]
  · have filled : gap.toList ++ rest.toList ≠ [] := by simp [alone]
    obtain ⟨c, after, split⟩ := List.exists_cons_of_ne_nil filled
    rw [if_neg alone, split]
    show some (word.toList, dropStart (c :: after)) = _
    rw [← split, dropStart_append_of_blank parts.between, dropStart_of_first parts.first]

/-- The line is taken apart as it was put together. -/
theorem all_of_parts : all tree l typed =
    if gap = "" then names tree l word.toList else
      match lowercase word with
      | "cd" => withChildren tree l "cd" rest Node.isDirectory ++ ([ "..", "~"].filter (beginsWith rest)).map ("cd " ++ ·)
      | "cat" => withChildren tree l "cat" rest Node.isFile
      | "open" => withChildren tree l "open" rest Node.isFile
      | _ => names tree l (word.toList ++ (gap.toList ++ rest.toList)) := by
  have filled : word.toList ++ (gap.toList ++ rest.toList) ≠ [] := by simp [parts.filled]
  have value := all.eq_def tree l typed
  simp only [parts.dropStart_eq, if_neg filled, parts.splitWord?_eq] at value
  by_cases alone : gap = ""
  · simpa [alone, parts.rest_eq alone] using value
  · simp only [if_neg alone, String.ofList_toList] at value ⊢
    exact value

end Parts

/-! ### The names at a location -/

/-- What there is at a location to be named: the children of a directory, and nothing else. -/
inductive Holds (tree : ContentTree) (l : Location) : List Node → Prop where
  | directory {label : Label} {children : List Node} (found : tree.lookup l = some (.directory label children)) :
    Holds tree l children
  | file {label : Label} {content : Content} {link : Option String}
    (found : tree.lookup l = some (.file label content link)) : Holds tree l []
  | nothing (missing : tree.lookup l = none) : Holds tree l []

theorem childrenAt_of_lookup {here : Node} (found : tree.lookup l = some here) : childrenAt tree l = here.children := by
  rw [childrenAt, found]
  rfl

theorem childrenAt_of_nothing (nothing : tree.lookup l = none) : childrenAt tree l = [] := by
  rw [childrenAt, nothing]
  rfl

theorem holds_iff {children : List Node} : Holds tree l children ↔ childrenAt tree l = children := by
  constructor
  · rintro (found | found | missing)
    · exact childrenAt_of_lookup found
    · exact childrenAt_of_lookup found
    · exact childrenAt_of_nothing missing
  · rintro rfl
    cases found : tree.lookup l with
    | none => exact childrenAt_of_nothing found ▸ .nothing found
    | some here =>
      rw [childrenAt_of_lookup found]
      cases here with
      | directory label children => exact .directory found
      | file label content link => exact .file found

/-- The names that a first word can be completed to, in the order in which they are offered: the verbs, the sections
and the children of the node at the location. -/
def known (tree : ContentTree) (children : List Node) : List String :=
  Verb.spellings.map Prod.fst ++ (tree.root.children.filter Node.isDirectory).map Node.name ++ children.map Node.name

theorem entryName_of_mem_childrenAt {n : Node} (listed : n ∈ childrenAt tree l) : EntryName n.name := by
  cases found : tree.lookup l with
  | none =>
    rw [childrenAt_of_nothing found] at listed
    cases listed
  | some here =>
    rw [childrenAt_of_lookup found] at listed
    exact (tree.wellNamed_root.descend? found).2.entryName_of_mem listed

theorem distinct_childrenAt (tree : ContentTree) (l : Location) : ((childrenAt tree l).map Node.name).Nodup := by
  cases found : tree.lookup l with
  | none =>
    rw [childrenAt_of_nothing found]
    exact List.nodup_nil
  | some here =>
    rw [childrenAt_of_lookup found]
    exact (tree.wellNamed_root.descend? found).2.distinct

theorem solid_of_mem_known (listed : name ∈ known tree (childrenAt tree l)) : ∀ c ∈ name.toList, isBlank c = false := by
  rcases List.mem_append.mp listed with listed | listed
  · rcases List.mem_append.mp listed with listed | listed
    · have solid : ∀ spelling ∈ Verb.spellings.map Prod.fst, spelling.toList.any isBlank = false := by decide
      exact any_isBlank_eq_false.mp (solid name listed)
    · obtain ⟨n, child, rfl⟩ := List.mem_map.mp listed
      exact (tree.wellNamed_root.entryName_of_mem (List.mem_of_mem_filter child)).solid
  · obtain ⟨n, child, rfl⟩ := List.mem_map.mp listed
    exact (entryName_of_mem_childrenAt child).solid

theorem names_eq (line : List Char) : names tree l line = ((known tree (childrenAt tree l)).filter fun name =>
    beginsWith (lowercase (String.ofList (dropEnds line))) (lowercase name)).eraseDups := by
  rw [← firstOccurrences_eq_eraseDups]
  simp only [names, known, ContentTree.sections, beginsWith, lowercase, String.toList_ofList]

/-- Several words begin no name. -/
theorem names_eq_nil {line : List Char} {c : Char} (blank : isBlank c = true) (inside : c ∈ dropEnds line) :
    names tree l line = [] := by
  have none : ((known tree (childrenAt tree l)).filter fun name =>
      beginsWith (lowercase (String.ofList (dropEnds line))) (lowercase name)) = [] := by
    refine List.filter_eq_nil_iff.mpr fun name listed begins => ?_
    have kept : c ∈ lowerChars (dropEnds line) := mem_lowerAfter_of_isBlank blank inside []
    have start : lowerChars (dropEnds line) <+: lowerChars name.toList := by
      simpa [beginsWith, lowercase, List.isPrefixOf_iff_prefix] using begins
    have solid := solid_lowerAfter (solid_of_mem_known listed) [] c (start.subset kept)
    rw [blank] at solid
    cases solid
  rw [names_eq, none]
  rfl

theorem Parts.dropEnds_eq (parts : Parts typed word gap "") : dropEnds (word.toList ++ gap.toList) = word.toList := by
  have letters : word.toList ≠ [] := by simpa using parts.filled
  exact @dropEnds_append_of_blank [] _ _ (List.forall_mem_nil _) letters (.of_solid parts.solid) parts.between

/-- A blank between two words is not dropped. -/
theorem Parts.exists_blank (parts : Parts typed word gap rest) (more : rest ≠ "") :
    ∃ c ∈ dropEnds (word.toList ++ (gap.toList ++ rest.toList)), isBlank c = true := by
  have letters : word.toList ≠ [] := by simpa using parts.filled
  obtain ⟨c, gap', gapped⟩ := List.exists_cons_of_ne_nil (l := gap.toList) (by simpa using parts.parted more)
  obtain ⟨d, others, start⟩ := List.exists_cons_of_ne_nil (l := rest.toList) (by simpa using more)
  have kept : dropEnds rest.toList ≠ [] := fun none => by
    have blank := dropEnds_eq_nil_iff.mp none d (by simp [start])
    rw [parts.first d (by simp [start])] at blank
    cases blank
  obtain ⟨front, tail, split, -, behind⟩ := exists_dropEnds rest.toList
  have ends : Trim (word.toList ++ (gap.toList ++ front ++ dropEnds rest.toList)) :=
    .word_append letters parts.solid kept (trim_dropEnds rest.toList) (gap.toList ++ front)
  have line := dropEnds_append_of_blank (List.forall_mem_nil _) (List.append_ne_nil_of_left_ne_nil letters _) ends behind
  have whole : word.toList ++ (gap.toList ++ rest.toList) =
      [] ++ (word.toList ++ (gap.toList ++ front ++ dropEnds rest.toList)) ++ tail := by
    conv_lhs => rw [split]
    simp
  refine ⟨c, ?_, parts.between c (by simp [gapped])⟩
  rw [whole, line, gapped]
  simp

/-! ### What is offered -/

/-- What is offered for a line, by its parts and by the children of the node at the location. -/
inductive Offers (tree : ContentTree) (children : List Node) (typed : String) : List String → Prop where
  | blank (blank : ∀ c ∈ typed.toList, isBlank c = true) : Offers tree children typed []
  | directories {word gap rest : String} (parts : Parts typed word gap rest) (followed : gap ≠ "")
      (changes : lowercase word = "cd") : Offers tree children typed
        ((children.filter fun n => n.isDirectory && beginsWith rest n.name).map (fun n => "cd " ++ n.name) ++
          (["..", "~"].filter (beginsWith rest)).map ("cd " ++ ·))
  | files {word gap rest : String} (parts : Parts typed word gap rest) (followed : gap ≠ "")
      (reads : lowercase word ∈ ["cat", "open"]) : Offers tree children typed
        ((children.filter fun n => n.isFile && beginsWith rest n.name).map fun n => lowercase word ++ " " ++ n.name)
  | names {word gap : String} (parts : Parts typed word gap "")
      (other : gap ≠ "" → lowercase word ∉ ["cd", "cat", "open"]) : Offers tree children typed
        ((known tree children).filter fun name => beginsWith (lowercase word) (lowercase name)).eraseDups
  | words {word gap rest : String} (parts : Parts typed word gap rest) (more : rest ≠ "")
      (other : lowercase word ∉ ["cd", "cat", "open"]) : Offers tree children typed []

theorem exists_offers (tree : ContentTree) (children : List Node) (typed : String) :
    ∃ offered, Offers tree children typed offered := by
  by_cases blank : ∀ c ∈ typed.toList, isBlank c = true
  · exact ⟨_, .blank blank⟩
  obtain ⟨word, gap, rest, parts⟩ := exists_parts blank
  by_cases alone : gap = ""
  · obtain rfl := parts.rest_eq alone
    exact ⟨_, .names parts (absurd alone)⟩
  by_cases other : lowercase word ∈ ["cd", "cat", "open"]
  · rcases List.mem_cons.mp other with changes | reads
    · exact ⟨_, .directories parts alone changes⟩
    · exact ⟨_, .files parts alone reads⟩
  by_cases nothing : rest = ""
  · subst nothing
    exact ⟨_, .names parts fun _ => other⟩
  · exact ⟨_, .words parts nothing other⟩

theorem all_of_other (parts : Parts typed word gap rest) (other : gap ≠ "" → lowercase word ∉ ["cd", "cat", "open"]) :
    all tree l typed = names tree l (word.toList ++ (gap.toList ++ rest.toList)) := by
  rw [all_of_parts parts]
  split
  · rename_i alone
    simp [alone, parts.rest_eq alone]
  · rename_i followed
    have unlisted := other followed
    split
    · rename_i changes
      simp [changes] at unlisted
    · rename_i shows
      simp [shows] at unlisted
    · rename_i opens
      simp [opens] at unlisted
    · rfl

theorem Offers.all_eq {offered : List String} (offers : Offers tree (childrenAt tree l) typed offered) :
    all tree l typed = offered := by
  cases offers with
  | blank blank =>
    have none : dropStart typed.toList = [] := List.dropWhile_eq_nil_iff.mpr blank
    rw [all, if_pos none]
  | directories parts followed changes =>
    rw [all_of_parts parts, if_neg followed, changes]
    rfl
  | @files word gap rest parts followed reads =>
    rw [all_of_parts parts, if_neg followed]
    have known : lowercase word = "cat" ∨ lowercase word = "open" := by simpa using reads
    rcases known with shows | opens
    · rw [shows]
      rfl
    · rw [opens]
      rfl
  | @names word gap parts other =>
    have line : gap.toList ++ "".toList = gap.toList := List.append_nil _
    rw [all_of_other parts other, names_eq, line, parts.dropEnds_eq, String.ofList_toList]
  | words parts more other =>
    obtain ⟨c, inside, blank⟩ := parts.exists_blank more
    rw [all_of_other parts fun _ => other, names_eq_nil blank inside]

theorem nodup_named (lead : String) (wanted : Node → Bool) :
    (((childrenAt tree l).filter wanted).map fun n => lead ++ n.name).Nodup := by
  have distinct : (((childrenAt tree l).filter wanted).map Node.name).Nodup :=
    (distinct_childrenAt tree l).sublist (List.filter_sublist.map Node.name)
  have named := distinct.map (f := (lead ++ ·)) fun _ _ => (String.append_right_inj lead).mp
  rwa [List.map_map] at named

/-- Siblings have different names, and none has the name of a way up or home. -/
theorem Offers.nodup {offered : List String} (offers : Offers tree (childrenAt tree l) typed offered) :
    offered.Nodup := by
  cases offers with
  | blank blank => exact List.nodup_nil
  | @directories word gap rest parts followed changes =>
    refine (nodup_named "cd " _).append ?_ ?_
    · exact (List.Nodup.filter _ (by decide)).map fun _ _ => (String.append_right_inj "cd ").mp
    · intro candidate child special
      obtain ⟨n, listed, rfl⟩ := List.mem_map.mp child
      obtain ⟨way, member, same⟩ := List.mem_map.mp special
      have free := (entryName_of_mem_childrenAt (List.mem_of_mem_filter listed)).free
      have known : way = ".." ∨ way = "~" := by simpa using (List.mem_filter.mp member).1
      rw [(String.append_right_inj "cd ").mp same] at known
      exact known.elim free.2.1 free.2.2
  | files parts followed reads => exact nodup_named _ _
  | names parts other =>
    rw [← firstOccurrences_eq_eraseDups]
    exact nodup_firstOccurrences _
  | words parts more other => exact List.nodup_nil

/-- What is suggested for a line: nothing twice, and the first of what is offered for it, given what the node at the
location holds. -/
theorem suggest_offers (tree : ContentTree) (l : Location) (most : Nat) (typed : String) :
    (suggest tree l most typed).Nodup ∧ (∃! children, Holds tree l children) ∧
    ∀ children, Holds tree l children → (∃! offered, Offers tree children typed offered) ∧
      ∀ offered, Offers tree children typed offered → suggest tree l most typed = offered.take most := by
  obtain ⟨offered, offers⟩ := exists_offers tree (childrenAt tree l) typed
  have first : ∀ other, Offers tree (childrenAt tree l) typed other → suggest tree l most typed = other.take most :=
    fun other offers => congrArg (List.take most) offers.all_eq
  refine ⟨?_, ⟨childrenAt tree l, holds_iff.mpr rfl, fun _ held => (holds_iff.mp held).symm⟩, fun children held => ?_⟩
  · rw [first offered offers]
    exact offers.nodup.sublist (List.take_sublist most offered)
  · obtain rfl := holds_iff.mp held
    exact ⟨⟨offered, offers, fun other others => others.all_eq.symm.trans offers.all_eq⟩, first⟩

/-- Among the projects: a file after a verb in capitals, and a verb, a section and a file for a single letter. -/
theorem suggest_offers_in_sample :
    Holds Sample.tree ⟨["projects"]⟩ Sample.projects.children ∧
    Offers Sample.tree Sample.projects.children "CAT e" ["cat epicwars-cvc"] ∧
    suggest Sample.tree ⟨["projects"]⟩ 6 "CAT e" = ["cat epicwars-cvc"] ∧
    Offers Sample.tree Sample.projects.children "\tP " ["pwd", "projects", "pixel-forge"] ∧
    suggest Sample.tree ⟨["projects"]⟩ 2 "\tP " = ["pwd", "projects"] := by
  have blank : ∀ c ∈ " ".toList, isBlank c = true := List.all_eq_true.mp (by decide)
  have before : ∀ c ∈ "\t".toList, isBlank c = true := List.all_eq_true.mp (by decide)
  have verb : ∀ c ∈ "CAT".toList, isBlank c = false := any_isBlank_eq_false.mp (by decide)
  have letter : ∀ c ∈ "P".toList, isBlank c = false := any_isBlank_eq_false.mp (by decide)
  have reading : Parts "CAT e" "CAT" " " "e" :=
    ⟨⟨"", List.forall_mem_nil _, rfl⟩, by decide, verb, blank, fun _ => by decide,
      fun c first => Option.some.inj first ▸ by decide⟩
  have naming : Parts "\tP " "P" " " "" := ⟨⟨"\t", before, rfl⟩, by decide, letter, blank, by simp, by simp⟩
  have held : Holds Sample.tree ⟨["projects"]⟩ Sample.projects.children := .directory rfl
  have file : Offers Sample.tree Sample.projects.children "CAT e" ["cat epicwars-cvc"] := by
    have listed : ((Sample.projects.children.filter fun n => n.isFile && beginsWith "e" n.name).map
        fun n => lowercase "CAT" ++ " " ++ n.name) = ["cat epicwars-cvc"] := by decide +kernel
    exact listed ▸ .files reading (by decide) (by decide +kernel)
  have names : Offers Sample.tree Sample.projects.children "\tP " ["pwd", "projects", "pixel-forge"] := by
    have listed : ((known Sample.tree Sample.projects.children).filter fun name =>
        beginsWith (lowercase "P") (lowercase name)).eraseDups = ["pwd", "projects", "pixel-forge"] := by decide +kernel
    exact listed ▸ .names naming fun _ => by decide +kernel
  exact ⟨held, file, ((suggest_offers Sample.tree ⟨["projects"]⟩ 6 "CAT e").2.2 _ held).2 _ file, names,
    ((suggest_offers Sample.tree ⟨["projects"]⟩ 2 "\tP ").2.2 _ held).2 _ names⟩

/-! ### Beginnings of names -/

theorem parts_of_solid (filled : word ≠ "") (solid : ∀ c ∈ word.toList, isBlank c = false) : Parts word word "" "" where
  text := ⟨"", List.forall_mem_nil _, by simp⟩
  filled := filled
  solid := solid
  between := List.forall_mem_nil _
  parted more := absurd rfl more
  first := by simp

theorem mem_all_of_solid (filled : word ≠ "") (solid : ∀ c ∈ word.toList, isBlank c = false) :
    name ∈ all tree l word ↔
      name ∈ known tree (childrenAt tree l) ∧ lowerChars word.toList <+: lowerChars name.toList := by
  have offers : Offers tree (childrenAt tree l) word _ := .names (parts_of_solid filled solid) (absurd rfl)
  rw [offers.all_eq, List.mem_eraseDups, List.mem_filter]
  simp only [beginsWith, lowercase, String.toList_ofList, List.isPrefixOf_iff_prefix]

/-- A beginning of a verb, of a section or of a child at the location is completed to it, if so many are asked for that
nothing is left out, but for one case: the beginning ends in a sigma behind a cased letter, so that in lower case the
sigma is final, and the name has a cased letter next. -/
theorem name_offered_iff (tree : ContentTree) (l : Location) {children : List Node} (held : Holds tree l children)
    {start rest : String} {most : Nat} (listed : start ++ rest ∈ known tree children) (filled : start ≠ "")
    (room : (all tree l start).length ≤ most) :
    start ++ rest ∈ suggest tree l most start ↔
      ¬ (EndsInSigma [] start.toList ∧ startsCased rest.toList = true) := by
  obtain rfl := holds_iff.mp held
  have solid : ∀ c ∈ start.toList, isBlank c = false := by
    have whole := solid_of_mem_known listed
    rw [String.toList_append] at whole
    exact (List.forall_mem_append.mp whole).1
  rw [suggest, List.take_of_length_le room, mem_all_of_solid filled solid, String.toList_append, lowerChars_prefix_iff]
  exact and_iff_right listed

/-- Two sections with a sigma inside, at the end of a word and within one. -/
def sigmaTree : ContentTree := ⟨Node.ofChildren "" [Node.ofChildren "ΑΣ-Α" [], Node.ofChildren "ΑΣΑ" []], by decide⟩

/-- A sigma at the end of a word hides no name, and a beginning of a project leads to that project. -/
theorem name_offered_behind_sigma :
    "ΑΣ" ++ "-Α" ∈ known sigmaTree sigmaTree.root.children ∧ (all sigmaTree .root "ΑΣ").length ≤ 6 ∧
      "ΑΣ" ++ "-Α" ∈ suggest sigmaTree .root 6 "ΑΣ" ∧
    "pix" ++ "el-forge" ∈ known Sample.tree Sample.projects.children ∧
      (all Sample.tree ⟨["projects"]⟩ "pix").length ≤ 6 ∧
      "pix" ++ "el-forge" ∈ suggest Sample.tree ⟨["projects"]⟩ 6 "pix" := by
  have atRoot : Holds sigmaTree .root sigmaTree.root.children := .directory rfl
  have below : Holds Sample.tree ⟨["projects"]⟩ Sample.projects.children := .directory rfl
  have listed : "ΑΣ" ++ "-Α" ∈ known sigmaTree sigmaTree.root.children := by decide +kernel
  have project : "pix" ++ "el-forge" ∈ known Sample.tree Sample.projects.children := by decide +kernel
  have room : (all sigmaTree .root "ΑΣ").length ≤ 6 := by decide +kernel
  have space : (all Sample.tree ⟨["projects"]⟩ "pix").length ≤ 6 := by decide +kernel
  have apart : ¬ startsCased "-Α".toList = true := by decide +kernel
  have plain : ¬ EndsInSigma [] "pix".toList := by
    rintro ⟨front, marks, split, -⟩
    have sigma : 'Σ' ∈ "pix".toList := split ▸ List.mem_append_right front List.mem_cons_self
    exact absurd sigma (by decide)
  exact ⟨listed, room, (name_offered_iff sigmaTree .root atRoot listed (by decide) room).mpr fun both => apart both.2,
    project, space, (name_offered_iff Sample.tree ⟨["projects"]⟩ below project (by decide) space).mpr fun both => plain both.1⟩

theorem name_hidden_by_sigma :
    "ΑΣΑ" ∈ sigmaTree.sections ∧ "ΑΣ" ≠ "" ∧ "ΑΣ" ++ "Α" = "ΑΣΑ" ∧
      ∀ most : Nat, (all sigmaTree .root "ΑΣ").length ≤ most → "ΑΣΑ" ∉ suggest sigmaTree .root most "ΑΣ" := by
  refine ⟨by decide +kernel, by decide, by decide, fun most _ member => ?_⟩
  have missing : "ΑΣΑ" ∉ all sigmaTree .root "ΑΣ" := by decide +kernel
  exact missing (List.mem_of_mem_take member)

end PortfolioShell.Suggestion
