import AccessLatency.Files.Tree
import AccessLatency.Proofs.Text.Split
import Mathlib.Tactic

/-!
# The place that a path leads to

A path that ends in a name leads into the place of its folder, under that name: `placeOf_eq_concat`.
Separators and single dots at the end of a path, which are left out when its name and its folder are
taken, do not change its place either. Where following a path or opening a file under it succeeds,
it ends at this place, whatever is on the way.
-/

set_option autoImplicit false

namespace AccessLatency

namespace Path

/-- A name with an extension is its stem, a dot and the extension. -/
theorem eq_of_splitName {name stem extension : List Char}
    (h : splitName name = (stem, some extension)) : name = stem ++ '.' :: extension := by
  unfold splitName at h
  split at h
  · rename_i dot before rest behind
    have parts := List.takeWhile_append_dropWhile (p := isPlain) (l := name.reverse)
    have notPlain : isPlain dot = false := by
      have first := List.head_dropWhile_not isPlain (l := name.reverse) (by simp [behind])
      simpa [behind] using first
    obtain rfl : dot = '.' := by simpa [isPlain] using notPlain
    cases h
    rw [behind] at parts
    have whole := congrArg List.reverse parts
    rw [List.reverse_reverse, List.reverse_append, List.reverse_cons, List.append_assoc] at whole
    exact whole.symm
  · cases h

/-- The name of a path is its last component, unless that is empty or made of one or two dots. -/
theorem eq_of_fileName? {p name : List Char} (h : fileName? p = some name) :
    name = lastComponent p.reverse ∧ name ≠ [] ∧ name ≠ here ∧ name ≠ above := by
  unfold fileName? at h
  dsimp only at h
  split at h
  · cases h
  · rename_i normal
    cases h
    tauto

/-- If something of a path is left, there is a path. -/
theorem reverse_ne_nil_of_dropIdle {rest : List Char} (h : dropIdle rest ≠ []) :
    rest.reverse ≠ [] := by
  intro none
  apply h
  rw [List.reverse_eq_nil_iff.1 none]
  rfl

/-- A component holds no separator. -/
theorem not_mem_lastComponent (reversed : List Char) : '/' ∉ lastComponent reversed := by
  intro member
  unfold lastComponent at member
  have inner := List.mem_takeWhile_imp (List.mem_reverse.1 member)
  cases inner

/-- In front of the last component of a path there is nothing or a separator. -/
theorem eq_separator_of_dropWhile {s rest : List Char} {c : Char}
    (h : s.dropWhile isInner = c :: rest) : c = '/' := by
  have first := List.head_dropWhile_not isInner (l := s) (by simp [h])
  simpa [h, isInner] using first

/-- What is left of a path is its last component and what is in front of it. -/
theorem reverse_dropIdle (reversed : List Char) :
    (dropIdle reversed).reverse =
      ((dropIdle reversed).dropWhile isInner).reverse ++ lastComponent reversed := by
  rw [lastComponent, ← List.reverse_append, List.takeWhile_append_dropWhile]

end Path

namespace FileTree

variable {α : Type} (t : FileTree α)

/-- Into a name that is none of the dots a path leads down. -/
theorem advance_eq_concat {place : Place} {name : List Char} (filled : name ≠ [])
    (notHere : name ≠ Path.here) (notAbove : name ≠ Path.above) :
    advance place name = place ++ [name] := by
  unfold advance
  rw [if_neg (by tauto), if_neg notAbove]

/-- Where a path starts from depends on its first character. -/
theorem start_append {p : List Char} (h : p ≠ []) (q : List Char) :
    t.start (p ++ q) = t.start p := by
  obtain ⟨c, rest, rfl⟩ := List.exists_cons_of_ne_nil h
  rfl

/-- A component behind a separator leads on from the place in front of it. -/
theorem placeOf_append_component (p : List Char) {name : List Char} (h : '/' ∉ name) :
    t.placeOf (p ++ '/' :: name) = advance (t.placeOf (p ++ ['/'])) name := by
  have start : t.start (p ++ '/' :: name) = t.start (p ++ ['/']) := by
    rw [← start_append t (p := p ++ ['/']) (by simp) name, List.append_assoc]
    rfl
  have name : Text.split '/' name = [name] := Text.split_of_not_mem h
  have empty : Text.split '/' [] = [([] : List Char)] := rfl
  unfold placeOf Path.components
  rw [start, Text.split_append_separator, Text.split_append_separator, name, empty,
    List.foldl_append, List.foldl_append]
  rfl

/-- A separator at the end does not change the place of a path. -/
theorem placeOf_append_separator {p : List Char} (h : p ≠ []) :
    t.placeOf (p ++ ['/']) = t.placeOf p := by
  unfold placeOf Path.components
  rw [start_append t h, Text.split_append_separator, List.foldl_append]
  rfl

/-- A single dot behind a separator does not change the place of a path. -/
theorem placeOf_append_here (p : List Char) :
    t.placeOf (p ++ ['/', '.']) = t.placeOf (p ++ ['/']) := by
  rw [placeOf_append_component t p (by decide)]
  rfl

/-- What is left out at the end of a path does not change its place. -/
theorem placeOf_dropIdle {reversed : List Char} (h : Path.dropIdle reversed ≠ []) :
    t.placeOf (Path.dropIdle reversed).reverse = t.placeOf reversed.reverse := by
  -- The induction is on what is left out, from the end of the path.
  induction reversed using Path.dropIdle.induct with
  | case1 rest ih =>
    rw [Path.dropIdle] at h ⊢
    rw [ih h, List.reverse_cons, placeOf_append_separator t (Path.reverse_ne_nil_of_dropIdle h)]
  | case2 rest ih =>
    rw [Path.dropIdle] at h ⊢
    rw [ih h, List.reverse_cons, List.reverse_cons, List.append_assoc]
    show _ = t.placeOf (rest.reverse ++ ['/', '.'])
    rw [placeOf_append_here, placeOf_append_separator t (Path.reverse_ne_nil_of_dropIdle h)]
  | case3 s notSeparator notHere => rw [Path.dropIdle] <;> assumption

/-- The folder that what is left of a path stands for, the root if nothing is. -/
def folderText (reversed : List Char) : List Char :=
  match Path.dropIdle reversed with
  | [] => ['/']
  | rest => rest.reverse

/-- The folder in front of a separator has the place that the path has up to the separator. -/
theorem placeOf_folderText (reversed : List Char) :
    t.placeOf (folderText reversed) = t.placeOf (reversed.reverse ++ ['/']) := by
  induction reversed using Path.dropIdle.induct with
  | case1 rest ih =>
    have same : folderText ('/' :: rest) = folderText rest := by
      unfold folderText
      rw [Path.dropIdle]
    have filled : rest.reverse ++ ['/'] ≠ [] := by simp
    rw [same, ih, List.reverse_cons, placeOf_append_separator t filled]
  | case2 rest ih =>
    have same : folderText ('.' :: '/' :: rest) = folderText rest := by
      unfold folderText
      rw [Path.dropIdle]
    have idle : ('.' :: '/' :: rest).reverse = rest.reverse ++ ['/', '.'] := by simp
    have filled : rest.reverse ++ ['/', '.'] ≠ [] := by simp
    rw [same, ih, idle, placeOf_append_separator t filled, placeOf_append_here]
  | case3 s notSeparator notHere =>
    have same : Path.dropIdle s = s := by rw [Path.dropIdle] <;> assumption
    unfold folderText
    rw [same]
    cases s with
    | nil => rfl
    | cons c rest => exact (placeOf_append_separator t (by simp)).symm

/-- A folder in front of a separator is written as something, if only as the root. -/
theorem folderText_ne_nil (reversed : List Char) : folderText reversed ≠ [] := by
  unfold folderText
  split
  · simp
  · rename_i filled
    simpa using filled

/-- The folder that the name at the end of a path is in: the current one for a name on its own. -/
def folderOf (p : List Char) : List Char :=
  match Path.parent p with
  | [] => Path.here
  | folder => folder

/-- A name on its own is in the current folder. -/
theorem folderOf_eq_here {p : List Char}
    (front : (Path.dropIdle p.reverse).dropWhile Path.isInner = []) : folderOf p = Path.here := by
  unfold folderOf Path.parent
  rw [front]

/-- A name behind a separator is in the folder in front of it. -/
theorem folderOf_eq_folderText {p : List Char} {c : Char} {rest : List Char}
    (front : (Path.dropIdle p.reverse).dropWhile Path.isInner = c :: rest) :
    folderOf p = folderText (c :: rest) := by
  have parent : Path.parent p = folderText (c :: rest) := by
    unfold Path.parent
    rw [front]
    rfl
  unfold folderOf
  rw [parent]
  split
  · rename_i none
    exact absurd none (folderText_ne_nil _)
  · rfl

/-- A name on its own has its place in the working folder. -/
theorem placeOf_name {name : List Char} (inner : '/' ∉ name) (filled : name ≠ [])
    (notHere : name ≠ Path.here) (notAbove : name ≠ Path.above) :
    t.placeOf name = t.working ++ [name] := by
  have start : t.start name = t.working := by
    obtain ⟨c, rest, rfl⟩ := List.exists_cons_of_ne_nil filled
    have relative : c ≠ '/' := fun same => inner (by simp [same])
    unfold start Path.isAbsolute
    simp [relative]
  unfold placeOf Path.components
  rw [start, Text.split_of_not_mem inner, List.foldl_cons, List.foldl_nil,
    advance_eq_concat filled notHere notAbove]

/-- A path that ends in a name leads into the place of its folder, under that name. -/
theorem placeOf_eq_concat {p name : List Char} (h : Path.fileName? p = some name) :
    t.placeOf p = t.placeOf (folderOf p) ++ [name] := by
  obtain ⟨last, filled, notHere, notAbove⟩ := Path.eq_of_fileName? h
  have inner : '/' ∉ name := last ▸ Path.not_mem_lastComponent p.reverse
  have body : Path.dropIdle p.reverse ≠ [] := by
    intro none
    apply filled
    rw [last, Path.lastComponent, none]
    rfl
  have place : t.placeOf p = t.placeOf (Path.dropIdle p.reverse).reverse := by
    rw [placeOf_dropIdle t body, List.reverse_reverse]
  rw [place, Path.reverse_dropIdle, ← last]
  cases front : (Path.dropIdle p.reverse).dropWhile Path.isInner with
  | nil =>
    rw [folderOf_eq_here front, List.reverse_nil, List.nil_append,
      placeOf_name t inner filled notHere notAbove]
    rfl
  | cons c rest =>
    obtain rfl := Path.eq_separator_of_dropWhile front
    have text : ('/' :: rest).reverse ++ name = rest.reverse ++ '/' :: name := by simp
    have outer : rest.reverse ++ ['/'] ≠ [] := by simp
    rw [folderOf_eq_folderText front, placeOf_folderText, text,
      placeOf_append_component t _ inner, advance_eq_concat filled notHere notAbove,
      List.reverse_cons, placeOf_append_separator t outer]

/-! ## Following paths -/

/-- A name in a folder has its place in the place of the folder. -/
theorem child_place {folder : Place} {name : List Char} {next : Place × Option (FileNode α)}
    (h : t.child folder name = .ok next) : next.1 = folder ++ [name] := by
  unfold child at h
  split at h
  · cases h
  · cases h
    rfl

/-- A walk that arrives is at the place that its components lead to, whatever is on the way. -/
theorem walk_place {place last : Place} {node found : FileNode α} {names : List (List Char)}
    (h : t.walk place node names = .ok (last, found)) : last = names.foldl advance place := by
  induction names generalizing place node with
  | nil =>
    cases h
    rfl
  | cons name rest ih =>
    cases node with
    | file content => cases h
    | folder =>
      rw [walk] at h
      rw [List.foldl_cons]
      unfold advance
      split at h
      · rename_i stay
        rw [if_pos stay]
        exact ih h
      · rename_i move
        rw [if_neg move]
        split at h
        · rename_i up
          rw [if_pos up]
          exact ih h
        · rename_i down
          rw [if_neg down]
          cases entered : t.child place name with
          | error fault =>
            rw [entered] at h
            cases h
          | ok next =>
            obtain ⟨next, node?⟩ := next
            obtain rfl : next = place ++ [name] := child_place t entered
            rw [entered] at h
            cases node? with
            | none => cases h
            | some node => exact ih h

/-- Following a path leads to its place. -/
theorem follow_place {p : List Char} {place : Place} {node : FileNode α}
    (h : t.follow p = .ok (place, node)) : place = t.placeOf p := by
  unfold follow at h
  split at h
  · cases h
  · exact walk_place t h

/-- A folder that is opened is at the place of its path. -/
theorem openFolder_place {p : List Char} {place : Place} (h : t.openFolder p = .ok place) :
    place = t.placeOf p := by
  unfold openFolder at h
  split at h
  · cases h
  · rename_i arrived
    cases h
    exact follow_place t arrived
  · cases h

/-- A file in a folder has its place in the place of the folder. -/
theorem fileIn_eq_concat {folder place : Place} {name : List Char}
    (h : t.fileIn folder name = .ok place) : place = folder ++ [name] := by
  unfold fileIn at h
  cases entered : t.child folder name with
  | error fault =>
    rw [entered] at h
    cases h
  | ok next =>
    have there := child_place t entered
    rw [entered] at h
    obtain ⟨next, node?⟩ := next
    rcases node? with _ | ⟨⟨⟩ | content⟩
    · cases h
      exact there
    · cases h
    · cases h
      exact there

/-- A file that is opened for writing is at the place of its path. -/
theorem target_place {p : List Char} {place : Place} (h : t.target p = .ok place) :
    place = t.placeOf p := by
  unfold target at h
  split at h
  · cases h
  · dsimp only at h
    split at h
    · cases h
    · rename_i name front cut
      split at h
      · cases h
      · cases h
      · rename_i folder arrived
        split at h
        · cases h
        · rename_i normal
          simp only [not_or] at normal
          obtain ⟨notHere, notAbove, notOpen⟩ := normal
          -- The path does not end in a separator, so no component was dropped at its end.
          have whole : (Path.components p).reverse = name :: front := by
            cases reversed : (Path.components p).reverse with
            | nil =>
              rw [reversed] at cut
              cases cut
            | cons last others =>
              rw [reversed] at cut notOpen
              have solid : ¬ last.isEmpty = true := fun none =>
                notOpen (by rw [List.isEmpty_iff.1 none]; rfl)
              rwa [List.dropWhile_cons_of_neg solid] at cut
          have filled : name ≠ [] := by
            rintro rfl
            rw [whole] at notOpen
            exact notOpen rfl
          have parts : Path.components p = front.reverse ++ [name] := by
            rw [← List.reverse_reverse (Path.components p), whole, List.reverse_cons]
          rw [fileIn_eq_concat t h, walk_place t arrived]
          unfold placeOf
          rw [parts, List.foldl_append, List.foldl_cons, List.foldl_nil,
            advance_eq_concat filled notHere notAbove]

/-- A file that is written is put at the place of its path, and nothing else is changed. -/
theorem write_eq_ok {p : List Char} {content : α} {after : FileTree α}
    (h : t.write p content = .ok after) : after = t.put (t.placeOf p) (.file content) := by
  unfold write at h
  split at h
  · cases h
  · rename_i place found
    cases h
    rw [target_place t found]

end FileTree

end AccessLatency
