import GoNomad.App.FileTree

/-!
# The files of a workspace on the screen

Taps, refreshes and the answers of the daemon come in any order.  A listing may be
asked for twice, a directory may be closed before it was listed, and a refresh forgets
what was listed while the old rows are still shown.

* `Behind` — **what is behind the rows**, and a lemma for each change of it;
* `Shows.step` — the rows shown are those of listings that came;
* `rows_of_listings` — **every row comes from a listing**, and every open row has its own
  or waits for it.
-/

namespace App

open Proto Transition

structure FilesUiState (ε : Type) where
  loading : Bool := true
  refreshing : Bool := false
  nodes : List FileNode := []
  error : Option ε := none
  showHidden : Bool := false

/-- A coroutine that waits for a listing. -/
inductive Ask
  | load
  | fetch (path : String)
  deriving DecidableEq

/-- The directory that is listed. -/
def Ask.path (root : String) : Ask → String
  | .load => root
  | .fetch path => path

theorem Ask.fetch_ne_load (path : String) : Ask.fetch path ≠ .load := nofun

structure FilesViewModel (ε : Type) where
  root : String
  children : Children
  expanded : Finset String
  loadingPaths : Finset String
  state : FilesUiState ε
  /-- The coroutines that wait. -/
  asked : List Ask

/-- What can happen next. -/
inductive FilesEvent (ε : Type)
  | refresh
  | retry
  | toggleHidden
  | onNodeClicked (node : FileNode)
  /-- A listing arrives, or it failed with what is presented. -/
  | answered (ask : Ask) (answer : Except ε (List DirEntry))

/-- What a step leaves on the screen, and the file that it opens. -/
structure Display where
  rows : List FileNode
  opened : Option String

namespace FilesViewModel

variable {ε : Type}

def rebuild (vm : FilesViewModel ε) : FilesViewModel ε :=
  { vm with
    state.nodes :=
      walk vm.children vm.expanded vm.loadingPaths vm.state.showHidden vm.root 0 }

def load (vm : FilesViewModel ε) (initial : Bool) : FilesViewModel ε :=
  { vm with
    state := { vm.state with loading := initial, error := none }
    asked := .load :: vm.asked }

/-- The screen as it is opened. -/
def create (root : String) : FilesViewModel ε := load ⟨root, ∅, ∅, ∅, {}, []⟩ true

def refresh (vm : FilesViewModel ε) : FilesViewModel ε :=
  load { vm with state.refreshing := true, children := ∅ } false

def retry (vm : FilesViewModel ε) : FilesViewModel ε := vm.load true

def toggleHidden (vm : FilesViewModel ε) : FilesViewModel ε :=
  rebuild { vm with state.showHidden := !vm.state.showHidden }

def fetch (vm : FilesViewModel ε) (path : String) : FilesViewModel ε :=
  let vm := rebuild { vm with loadingPaths := insert path vm.loadingPaths }
  { vm with asked := .fetch path :: vm.asked }

def toggle (vm : FilesViewModel ε) (path : String) : FilesViewModel ε :=
  if path ∈ vm.expanded then rebuild { vm with expanded := vm.expanded.erase path }
  else
    let vm := { vm with expanded := insert path vm.expanded }
    if path ∈ vm.children then vm.rebuild else vm.fetch path

/-- A tap on a row, and the file that it opens. -/
def onNodeClicked (vm : FilesViewModel ε) (node : FileNode) : FilesViewModel ε × Option String :=
  match node.entry.kind with
  | .directory | .symlink => (vm.toggle node.path, none)
  | .file => (vm, some node.path)

/-- What a coroutine does with what it waited for. -/
def answer (vm : FilesViewModel ε) : Ask → Except ε (List DirEntry) → FilesViewModel ε
  | .load, .ok entries =>
      let vm := { vm with children := vm.children.insert vm.root entries }
      -- What is open and was not listed again is closed.
      let vm := { vm with expanded := vm.expanded.filter fun path => path ∈ vm.children }
      rebuild { vm with state.loading := false, state.refreshing := false }
  | .load, .error e =>
      { vm with state.loading := false, state.refreshing := false, state.error := some e }
  | .fetch path, .ok entries =>
      rebuild { vm with
        children := vm.children.insert path entries
        loadingPaths := vm.loadingPaths.erase path }
  | .fetch path, .error e =>
      rebuild { vm with
        loadingPaths := vm.loadingPaths.erase path
        expanded := vm.expanded.erase path
        state.error := some e }

def display (vm : FilesViewModel ε) (opened : Option String) :
    Option (FilesViewModel ε × Display) :=
  some (vm, ⟨vm.state.nodes, opened⟩)

def step (vm : FilesViewModel ε) : FilesEvent ε → Option (FilesViewModel ε × Display)
  | .refresh => vm.refresh.display none
  | .retry => vm.retry.display none
  | .toggleHidden => vm.toggleHidden.display none
  | .onNodeClicked node => (vm.onNodeClicked node).1.display (vm.onNodeClicked node).2
  | .answered ask reply =>
      if ask ∈ vm.asked then
        display (answer { vm with asked := vm.asked.erase ask } ask reply) none
      else none

/-- Only a row is tapped that is on the screen, or that was: the screen is drawn a little
later than the rows are built. -/
def Tapped (trace : List (FilesEvent ε × Display)) (vm : FilesViewModel ε) :
    FilesEvent ε → Prop
  | .onNodeClicked node => node ∈ vm.state.nodes ∨ ∃ entry ∈ trace, node ∈ entry.2.rows
  | _ => True

variable {root path : String} {trace : List (FilesEvent ε × Display)} {vm : FilesViewModel ε}
  {entries : List DirEntry}

/-! ### What is behind the rows -/

/-- A listing that came in a run. -/
def Listed (root : String) (trace : List (FilesEvent ε × Display)) (dir : String)
    (entries : List DirEntry) : Prop :=
  ∃ ask shown, (FilesEvent.answered ask (.ok entries), shown) ∈ trace ∧ Ask.path root ask = dir

theorem Listed.mono {dir : String} {entry : FilesEvent ε × Display}
    (h : Listed root trace dir entries) : Listed root (trace ++ [entry]) dir entries := by
  obtain ⟨ask, shown, hmem, hpath⟩ := h
  exact ⟨ask, shown, List.mem_append_left _ hmem, hpath⟩

/-- **What is behind the rows.** -/
structure Behind (root : String) (trace : List (FilesEvent ε × Display)) (vm : FilesViewModel ε) :
    Prop where
  rooted : vm.root = root
  listed : ∀ dir entries, vm.children.lookup dir = some entries → Listed root trace dir entries
  /-- What is open is there or on the way, unless a refresh forgot it. -/
  kept : root ∈ vm.children → ∀ path ∈ vm.expanded, path ∈ vm.children ∨ path ∈ vm.loadingPaths
  awaited : ∀ path ∈ vm.loadingPaths, Ask.fetch path ∈ vm.asked
  spinning : vm.state.loading = true ∨ vm.state.refreshing = true → Ask.load ∈ vm.asked
  below : ∀ path, Ask.fetch path ∈ vm.asked → root.length < path.length

namespace Behind

theorem mono {entry : FilesEvent ε × Display} (h : Behind root trace vm) :
    Behind root (trace ++ [entry]) vm :=
  { h with listed := fun dir entries hlookup => (h.listed dir entries hlookup).mono }

/-- What a refresh forgets. -/
theorem clear (h : Behind root trace vm) : Behind root trace { vm with children := ∅ } where
  rooted := h.rooted
  listed dir entries hlookup := by cases hlookup
  kept hroot := absurd hroot (AList.notMem_empty _)
  awaited := h.awaited
  spinning := h.spinning
  below := h.below

/-- The root is asked for. -/
theorem loading (h : Behind root trace vm) (loading refreshing : Bool) (error : Option ε) :
    Behind root trace
      { vm with
        state := { vm.state with loading := loading, refreshing := refreshing, error := error }
        asked := .load :: vm.asked } where
  rooted := h.rooted
  listed := h.listed
  kept := h.kept
  awaited path hpath := List.mem_cons_of_mem _ (h.awaited path hpath)
  spinning _ := List.mem_cons_self
  below path hmem := h.below path ((List.mem_cons.mp hmem).resolve_left nofun)

/-- The listing of the root failed. -/
theorem loadFailed (h : Behind root trace vm) (error : Option ε) :
    Behind root trace
      { vm with
        state := { vm.state with loading := false, refreshing := false, error := error }
        asked := vm.asked.erase .load } where
  rooted := h.rooted
  listed := h.listed
  kept := h.kept
  awaited path hpath := (List.mem_erase_of_ne (Ask.fetch_ne_load _)).mpr (h.awaited path hpath)
  spinning hspins := by
    rcases hspins with hspins | hspins
    · cases hspins
    · cases hspins
  below path hmem := h.below path (List.mem_of_mem_erase hmem)

/-- What is listed once a listing came. -/
theorem listed_insert (h : Behind root trace vm) (hcame : Listed root trace path entries) :
    ∀ dir entries', (vm.children.insert path entries).lookup dir = some entries' →
      Listed root trace dir entries' := by
  intro dir entries' hlookup
  rw [AList.lookup_insert_ite] at hlookup
  split_ifs at hlookup with hdir
  · obtain rfl := Option.some.inj hlookup
    rwa [hdir]
  · exact h.listed dir entries' hlookup

/-- The listing of the root came: what was not listed again is closed. -/
theorem loaded (h : Behind root trace vm) (hcame : Listed root trace root entries) :
    Behind root trace
      { vm with
        children := vm.children.insert root entries
        expanded := vm.expanded.filter fun path => path ∈ vm.children.insert root entries
        state := { vm.state with loading := false, refreshing := false }
        asked := vm.asked.erase .load } where
  rooted := h.rooted
  listed := h.listed_insert hcame
  kept _ _ hpath := .inl (Finset.mem_filter.mp hpath).2
  awaited := (h.loadFailed none).awaited
  spinning := (h.loadFailed none).spinning
  below := (h.loadFailed none).below

/-- A directory is opened that was listed before. -/
theorem opened (h : Behind root trace vm) (hlisted : path ∈ vm.children) :
    Behind root trace { vm with expanded := insert path vm.expanded } where
  rooted := h.rooted
  listed := h.listed
  kept hroot path' hpath' := by
    rcases Finset.mem_insert.mp hpath' with rfl | hpath'
    · exact .inl hlisted
    · exact h.kept hroot path' hpath'
  awaited := h.awaited
  spinning := h.spinning
  below := h.below

/-- A directory is opened, and asked for. -/
theorem fetching (h : Behind root trace vm) (hbelow : root.length < path.length) :
    Behind root trace
      { vm with
        expanded := insert path vm.expanded
        loadingPaths := insert path vm.loadingPaths
        asked := .fetch path :: vm.asked } where
  rooted := h.rooted
  listed := h.listed
  kept hroot path' hpath' := by
    rcases Finset.mem_insert.mp hpath' with rfl | hpath'
    · exact .inr (Finset.mem_insert_self ..)
    · exact (h.kept hroot path' hpath').imp_right Finset.mem_insert_of_mem
  awaited path' hpath' := by
    rcases Finset.mem_insert.mp hpath' with rfl | hpath'
    · exact List.mem_cons_self
    · exact List.mem_cons_of_mem _ (h.awaited path' hpath')
  spinning hspins := List.mem_cons_of_mem _ (h.spinning hspins)
  below path' hmem := by
    rcases List.mem_cons.mp hmem with heq | hmem
    · obtain rfl := Ask.fetch.inj heq
      exact hbelow
    · exact h.below path' hmem

/-- A directory is closed. -/
theorem closed (h : Behind root trace vm) :
    Behind root trace { vm with expanded := vm.expanded.erase path } where
  rooted := h.rooted
  listed := h.listed
  kept hroot path' hpath' := h.kept hroot path' (Finset.mem_of_mem_erase hpath')
  awaited := h.awaited
  spinning := h.spinning
  below := h.below

/-- Who waits once one listing of a directory was answered. -/
theorem awaited_erase (h : Behind root trace vm) :
    ∀ path' ∈ vm.loadingPaths.erase path, Ask.fetch path' ∈ vm.asked.erase (.fetch path) := by
  intro path' hpath'
  obtain ⟨hne, hmem⟩ := Finset.mem_erase.mp hpath'
  exact (List.mem_erase_of_ne fun heq => hne (Ask.fetch.inj heq)).mpr (h.awaited path' hmem)

/-- The listing of a directory came. -/
theorem fetched (h : Behind root trace vm) (hasked : Ask.fetch path ∈ vm.asked)
    (hcame : Listed root trace path entries) :
    Behind root trace
      { vm with
        children := vm.children.insert path entries
        loadingPaths := vm.loadingPaths.erase path
        asked := vm.asked.erase (.fetch path) } where
  rooted := h.rooted
  listed := h.listed_insert hcame
  kept hroot path' hpath' := by
    have hroot : root ∈ vm.children := by
      refine ((AList.mem_insert _).mp hroot).resolve_left ?_
      rintro rfl
      exact absurd (h.below _ hasked) (lt_irrefl _)
    by_cases heq : path' = path
    · exact .inl ((AList.mem_insert _).mpr (.inl heq))
    · exact (h.kept hroot path' hpath').imp (fun hmem => (AList.mem_insert _).mpr (.inr hmem))
        fun hmem => Finset.mem_erase_of_ne_of_mem heq hmem
  awaited := h.awaited_erase
  spinning hspins := (List.mem_erase_of_ne (Ask.fetch_ne_load _).symm).mpr (h.spinning hspins)
  below path' hmem := h.below path' (List.mem_of_mem_erase hmem)

/-- The listing of a directory failed: it is closed. -/
theorem fetchFailed (h : Behind root trace vm) (error : Option ε) :
    Behind root trace
      { vm with
        loadingPaths := vm.loadingPaths.erase path
        expanded := vm.expanded.erase path
        state := { vm.state with error := error }
        asked := vm.asked.erase (.fetch path) } where
  rooted := h.rooted
  listed := h.listed
  kept hroot path' hpath' := by
    obtain ⟨hne, hmem⟩ := Finset.mem_erase.mp hpath'
    exact (h.kept hroot path' hmem).imp_right fun hmem => Finset.mem_erase_of_ne_of_mem hne hmem
  awaited := h.awaited_erase
  spinning hspins := (List.mem_erase_of_ne (Ask.fetch_ne_load _).symm).mpr (h.spinning hspins)
  below path' hmem := h.below path' (List.mem_of_mem_erase hmem)

/-- Which entries are hidden is not behind the rows. -/
theorem hidden (h : Behind root trace vm) (showHidden : Bool) :
    Behind root trace { vm with state.showHidden := showHidden } :=
  ⟨h.rooted, h.listed, h.kept, h.awaited, h.spinning, h.below⟩

theorem create (root : String) : Behind root [] (create root : FilesViewModel ε) where
  rooted := rfl
  listed dir entries hlookup := by cases hlookup
  kept _ path hpath := absurd hpath (Finset.notMem_empty _)
  awaited path hpath := absurd hpath (Finset.notMem_empty _)
  spinning _ := List.mem_singleton_self _
  below path hmem := nomatch List.mem_singleton.mp hmem

end Behind

/-! ### What is shown -/

/-- **What is shown**: rows of listings that came, with what is behind the rows now. -/
structure Shows (root : String) (trace : List (FilesEvent ε × Display)) (vm : FilesViewModel ε) :
    Prop where
  behind : Behind root trace vm
  nodes : ∃ children, Behind root trace { vm with children := children } ∧
    vm.state.nodes = walk children vm.expanded vm.loadingPaths vm.state.showHidden root 0

theorem Shows.mono {entry : FilesEvent ε × Display} (h : Shows root trace vm) :
    Shows root (trace ++ [entry]) vm := by
  obtain ⟨hbehind, children, hnodes, hrows⟩ := h
  exact ⟨hbehind.mono, children, hnodes.mono, hrows⟩

/-- What is built anew. -/
theorem Behind.shows (h : Behind root trace vm) : Shows root trace vm.rebuild :=
  have hrebuilt : Behind root trace vm.rebuild :=
    ⟨h.rooted, h.listed, h.kept, h.awaited, h.spinning, h.below⟩
  ⟨hrebuilt, vm.children, hrebuilt, by
    obtain rfl := h.rooted
    rfl⟩

/-- A row is not the root. -/
theorem Shows.below (h : Shows root trace vm) {row : FileNode} (hrow : row ∈ vm.state.nodes) :
    root.length < row.path.length := by
  obtain ⟨-, children, -, hrows⟩ := h
  rw [hrows] at hrow
  obtain ⟨rest, entry, -, rfl⟩ := mem_walk.mp hrow
  exact (length_le_pathAt root rest).trans_lt (length_childPath _ entry)

/-- What a tap makes of what is shown. -/
theorem Shows.onNodeClicked (h : Shows root trace vm) {node : FileNode}
    (hbelow : root.length < node.path.length) : Shows root trace (vm.onNodeClicked node).1 := by
  have htoggle : Shows root trace (vm.toggle node.path) := by
    unfold toggle
    by_cases hopen : node.path ∈ vm.expanded
    · rw [if_pos hopen]
      exact h.behind.closed.shows
    · rw [if_neg hopen]
      dsimp only
      by_cases hlisted : node.path ∈ vm.children
      · rw [if_pos hlisted]
        exact (h.behind.opened hlisted).shows
      · rw [if_neg hlisted]
        exact (h.behind.fetching hbelow).shows
  unfold FilesViewModel.onNodeClicked
  split
  · exact htoggle
  · exact htoggle
  · exact h

/-- What an answer makes of what is shown. -/
theorem Shows.answer (h : Shows root trace vm) {ask : Ask} {reply : Except ε (List DirEntry)}
    (hasked : ask ∈ vm.asked)
    (hcame : ∀ entries, reply = .ok entries → Listed root trace (ask.path root) entries) :
    Shows root trace (FilesViewModel.answer { vm with asked := vm.asked.erase ask } ask reply) := by
  obtain rfl := h.behind.rooted
  cases ask with
  | load =>
      cases reply with
      | ok entries => exact (h.behind.loaded (hcame entries rfl)).shows
      | error e =>
          -- The rows stay as they are.
          obtain ⟨children, hnodes, hrows⟩ := h.nodes
          exact ⟨h.behind.loadFailed _, children, hnodes.loadFailed _, hrows⟩
  | fetch path =>
      cases reply with
      | ok entries => exact (h.behind.fetched hasked (hcame entries rfl)).shows
      | error e => exact (h.behind.fetchFailed (some e)).shows

/-- **What a step makes of what is shown.** -/
theorem Shows.step {event : FilesEvent ε} {vm' : FilesViewModel ε} {shown : Display}
    (h : Shows root trace vm)
    (hbelow : ∀ node, event = .onNodeClicked node → root.length < node.path.length)
    (hstep : vm.step event = some (vm', shown)) :
    Shows root (trace ++ [(event, shown)]) vm' ∧ shown.rows = vm'.state.nodes := by
  obtain ⟨children, hnodes, hrows⟩ := h.nodes
  cases event with
  | refresh =>
      cases hstep
      exact ⟨Shows.mono ⟨h.behind.clear.loading _ _ _, children, hnodes.loading _ _ _, hrows⟩, rfl⟩
  | retry =>
      cases hstep
      exact ⟨Shows.mono ⟨h.behind.loading _ _ _, children, hnodes.loading _ _ _, hrows⟩, rfl⟩
  | toggleHidden =>
      cases hstep
      exact ⟨(h.behind.hidden _).shows.mono, rfl⟩
  | onNodeClicked node =>
      cases hstep
      exact ⟨(h.onNodeClicked (hbelow node rfl)).mono, rfl⟩
  | answered ask reply =>
      dsimp only [FilesViewModel.step] at hstep
      split_ifs at hstep with hasked
      cases hstep
      refine ⟨h.mono.answer hasked ?_, rfl⟩
      rintro entries rfl
      exact ⟨ask, _, List.mem_append_right _ List.mem_cons_self, rfl⟩

/-- **What is shown in a run.** -/
theorem shows_run (hrun : Run step Tapped (create root) trace vm) :
    Shows root trace vm ∧ ∀ entry ∈ trace, ∀ row ∈ entry.2.rows, root.length < row.path.length := by
  refine hrun.invariant (fun trace vm => Shows root trace vm ∧
    ∀ entry ∈ trace, ∀ row ∈ entry.2.rows, root.length < row.path.length) ?_ ?_
  · refine ⟨⟨.create root, ∅, .create root, ?_⟩, fun entry hentry => nomatch hentry⟩
    exact (walk_none rfl).symm
  · rintro trace vm event vm' shown ⟨hshows, hbelow⟩ htapped hstep
    have htaps : ∀ node, event = .onNodeClicked node → root.length < node.path.length := by
      rintro node rfl
      rcases htapped with hnode | ⟨entry, hentry, hnode⟩
      · exact hshows.below hnode
      · exact hbelow entry hentry node hnode
    obtain ⟨hshows', hrows⟩ := hshows.step htaps hstep
    refine ⟨hshows', fun entry hentry row hrow => ?_⟩
    rcases List.mem_append.mp hentry with hentry | hentry
    · exact hbelow entry hentry row hrow
    · obtain rfl := List.mem_singleton.mp hentry
      rw [hrows] at hrow
      exact hshows'.below hrow

/-! ### Where a row comes from -/

/-- A row that comes from a listing, and stands below the open row of its directory. -/
def Placed (root : String) (trace : List (FilesEvent ε × Display)) (vm : FilesViewModel ε)
    (row : FileNode) : Prop :=
  (row.entry.isHidden = true → vm.state.showHidden = true) ∧
    ∃ dir entries, Listed root trace dir entries ∧ row.entry ∈ entries ∧
      row.path = childPath dir row.entry ∧
      (dir = root ∧ row.depth = 0 ∨
        ∃ parent, [parent, row].Sublist vm.state.nodes ∧ parent.path = dir ∧
          parent.expanded = true ∧ row.depth = parent.depth + 1)

/-- An open row that waits for its listing, or has a row below it for each entry of one. -/
def Unfolded (root : String) (trace : List (FilesEvent ε × Display)) (vm : FilesViewModel ε)
    (row : FileNode) : Prop :=
  row.loadingChildren = true ∨
    ∃ entries, Listed root trace row.path entries ∧
      ∀ entry ∈ entries, (entry.isHidden = true → vm.state.showHidden = true) →
        ∃ child, [row, child].Sublist vm.state.nodes ∧ child.entry = entry ∧
          child.path = childPath row.path entry ∧ child.depth = row.depth + 1

section Rows

variable {children : Children} {row : FileNode}

theorem placed_of_walk (h : Behind root trace { vm with children := children })
    (hrows : vm.state.nodes =
      walk children vm.expanded vm.loadingPaths vm.state.showHidden root 0)
    (hrow : row ∈ vm.state.nodes) : Placed root trace vm row := by
  rw [hrows] at hrow
  obtain ⟨rest, entry, hshown, rfl⟩ := mem_walk.mp hrow
  rcases List.eq_nil_or_concat rest with rfl | ⟨before, parent, rfl⟩
  · obtain ⟨entries, hlookup, hentry, hhidden⟩ := mem_visible.mp hshown
    exact ⟨hhidden, root, entries, h.listed root entries hlookup, hentry, rfl, .inl ⟨rfl, rfl⟩⟩
  · rw [List.concat_eq_append] at hshown ⊢
    obtain ⟨-, hopen, hvisible⟩ := (Outline.shown_append (by simp)).mp hshown
    obtain ⟨entries, hlookup, hentry, hhidden⟩ := mem_visible.mp hvisible
    refine ⟨hhidden, _, entries, h.listed _ entries hlookup, hentry, rfl,
      .inr ⟨nodeAt vm.expanded vm.loadingPaths root 0 before parent, ?_, ?_, ?_, ?_⟩⟩
    · rw [hrows]
      exact sublist_walk hshown
    · exact (pathAt_append before parent).symm
    · change decide (childPath (pathAt root before) parent ∈ vm.expanded) = true
      rw [← pathAt_append]
      exact hopen
    · exact congrArg (0 + ·) List.length_append

theorem unfolded_of_walk (h : Behind root trace { vm with children := children })
    (hrows : vm.state.nodes =
      walk children vm.expanded vm.loadingPaths vm.state.showHidden root 0)
    (hrow : row ∈ vm.state.nodes) (hexpanded : row.expanded = true) :
    Unfolded root trace vm row := by
  rw [hrows] at hrow
  obtain ⟨rest, entry, hshown, rfl⟩ := mem_walk.mp hrow
  have hopen : childPath (pathAt root rest) entry ∈ vm.expanded := of_decide_eq_true hexpanded
  rcases h.kept (root_mem_of_shown hshown) _ hopen with hlisted | hloading
  · obtain ⟨entries, hlookup⟩ := Option.isSome_iff_exists.mp (AList.lookup_isSome.mpr hlisted)
    refine .inr ⟨entries, h.listed _ entries hlookup, fun child hchild hhidden => ?_⟩
    have hbelow : IsShown children vm.expanded vm.state.showHidden root
        (rest ++ [entry] ++ [child]) := by
      refine (Outline.shown_append (by simp)).mpr ⟨hshown, ?_, ?_⟩
      · rw [← pathAt_append] at hopen
        exact decide_eq_true hopen
      · rw [← pathAt_append] at hlookup
        exact mem_visible.mpr ⟨entries, hlookup, hchild, hhidden⟩
    refine ⟨nodeAt vm.expanded vm.loadingPaths root 0 (rest ++ [entry]) child, ?_, rfl, ?_, ?_⟩
    · rw [hrows]
      exact sublist_walk hbelow
    · exact congrArg (childPath · child) (pathAt_append rest entry)
    · exact congrArg (0 + ·) List.length_append
  · exact .inl (decide_eq_true hloading)

end Rows

/-- **Every row comes from a listing.**  Whatever is tapped, refreshed and answered, and
in whatever order: a row stands below the open row of its directory, which has listed
it; an open row waits for its listing or shows it; nothing is shown as on its way that
is not; and where no listing names anything twice, no two rows have one key. -/
theorem rows_of_listings (hrun : Run step Tapped (create root) trace vm) :
    (∀ row ∈ vm.state.nodes, Placed root trace vm row ∧
      (row.expanded = true → Unfolded root trace vm row) ∧
      (row.loadingChildren = true → Ask.fetch row.path ∈ vm.asked)) ∧
    (vm.state.loading = true ∨ vm.state.refreshing = true → Ask.load ∈ vm.asked) ∧
    ((∀ dir entries, Listed root trace dir entries → IsListing entries) →
      (vm.state.nodes.map FileNode.path).Nodup) := by
  obtain ⟨⟨hbehind, children, hnodes, hrows⟩, -⟩ := shows_run hrun
  refine ⟨fun row hrow => ⟨placed_of_walk hnodes hrows hrow, unfolded_of_walk hnodes hrows hrow,
    fun hloading => ?_⟩, hbehind.spinning, fun hlistings => ?_⟩
  · rw [hrows] at hrow
    obtain ⟨rest, entry, -, rfl⟩ := mem_walk.mp hrow
    exact hbehind.awaited _ (of_decide_eq_true hloading)
  · rw [hrows]
    exact nodup_walk fun dir entries hlookup => hlistings dir entries (hnodes.listed dir entries hlookup)

/-- A directory with one file. -/
def sampleFolder : DirEntry := ⟨"d", .directory, none, none, false⟩
def sampleFile : DirEntry := ⟨"f", .file, some 5, none, false⟩

def sampleRow : FileNode := ⟨"r/d", sampleFolder, 0, false, false⟩

def sampleChildren : Children := AList.insert "r/d" [sampleFile] (AList.insert "r" [sampleFolder] ∅)

theorem walk_sample : walk sampleChildren {"r/d"} ∅ false "r" 0 =
    [⟨"r/d", sampleFolder, 0, true, false⟩, ⟨"r/d/f", sampleFile, 1, false, false⟩] := by
  have hbelow : walk sampleChildren {"r/d"} ∅ false "r/d" 1 = [⟨"r/d/f", sampleFile, 1, false, false⟩] := by
    rw [walk_some (by rfl : sampleChildren.lookup "r/d" = some [sampleFile])]
    rfl
  rw [walk_some (by rfl : sampleChildren.lookup "r" = some [sampleFolder])]
  change (_ :: walk sampleChildren {"r/d"} ∅ false "r/d" 1) ++ [] = _
  rw [hbelow]
  rfl

/-- The folder is listed. -/
def sampleListed : FilesViewModel Unit :=
  answer { create "r" with asked := [] } .load (.ok [sampleFolder])

theorem sampleListed_nodes : sampleListed.state.nodes = [sampleRow] := by
  change walk _ _ _ _ _ _ = _
  rw [walk_some rfl]
  rfl

def sampleTapped : FilesViewModel Unit :=
  fetch { sampleListed with expanded := {"r/d"} } "r/d"

def sampleOpen : FilesViewModel Unit :=
  answer { sampleTapped with asked := [] } (.fetch "r/d") (.ok [sampleFile])

def sampleTrace : List (FilesEvent Unit × Display) :=
  [(.answered .load (.ok [sampleFolder]), ⟨sampleListed.state.nodes, none⟩),
    (.onNodeClicked sampleRow, ⟨sampleTapped.state.nodes, none⟩),
    (.answered (.fetch "r/d") (.ok [sampleFile]), ⟨sampleOpen.state.nodes, none⟩)]

theorem sample_run : Run step Tapped (create "r") sampleTrace sampleOpen := by
  have hload : step (create "r" : FilesViewModel Unit) (.answered .load (.ok [sampleFolder])) =
      some (sampleListed, ⟨sampleListed.state.nodes, none⟩) := rfl
  have hrow : sampleRow ∈ sampleListed.state.nodes := by
    rw [sampleListed_nodes]
    exact List.mem_cons_self
  have htap : sampleListed.step (.onNodeClicked sampleRow) =
      some (sampleTapped, ⟨sampleTapped.state.nodes, none⟩) := by
    change (sampleListed.toggle "r/d").display none = _
    unfold toggle
    rw [if_neg (by decide), if_neg (by decide)]
    rfl
  have hfetched : sampleTapped.step (.answered (.fetch "r/d") (.ok [sampleFile])) =
      some (sampleOpen, ⟨sampleOpen.state.nodes, none⟩) := rfl
  exact ((Run.nil.snoc trivial hload).snoc (.inl hrow) htap).snoc trivial hfetched

/-- A folder is opened, and lists a file. -/
theorem rows_of_listings_sample :
    sampleOpen.state.nodes =
        [⟨"r/d", sampleFolder, 0, true, false⟩, ⟨"r/d/f", sampleFile, 1, false, false⟩] ∧
      (∀ row ∈ sampleOpen.state.nodes, Placed "r" sampleTrace sampleOpen row ∧
        (row.expanded = true → Unfolded "r" sampleTrace sampleOpen row)) ∧
      (sampleOpen.state.nodes.map FileNode.path).Nodup := by
  obtain ⟨hplaced, -, hnodup⟩ := rows_of_listings sample_run
  refine ⟨walk_sample, fun row hrow => ⟨(hplaced row hrow).1, (hplaced row hrow).2.1⟩, hnodup ?_⟩
  rintro dir entries ⟨ask, shown, hmem, -⟩
  simp only [sampleTrace, List.mem_cons, Prod.mk.injEq, FilesEvent.answered.injEq, Except.ok.injEq,
    List.not_mem_nil, or_false, reduceCtorEq, false_and, false_or] at hmem
  rcases hmem with ⟨⟨-, rfl⟩, -⟩ | ⟨⟨-, rfl⟩, -⟩
  · decide
  · decide

end FilesViewModel

end App
