-- SUMMARY: The link file: what an entry is, which pages are linked, and where the reading stops.
import WFA.Base.Script
import WFA.Translator.Forwarding

/-!
# Link files

`linkPages` in `Translator/src/Source.cpp`. The link file has an entry on each line,
with a letter for the method, a letter for the kind of page, the path, the file of
the page and, for a page that forwards, the path at the back end. Empty lines and
lines that begin with `#` are passed over. At a line that is none of these the
reading stops, and the pages in front of it stay linked.
-/

namespace WFA

open Text

/-! ## Entries -/

/-- An entry of the link file. -/
structure Link where
  method : Method
  /-- The path the page is served under. -/
  webDirectory : Text
  fileDirectory : Text
  /-- Where a request is sent on to. A static page sends none on. -/
  target : Option Text
  deriving DecidableEq, Repr

/-- The checks of a line, and what its parts are. -/
def parseLink : Text → Option Link
  | m :: k :: c :: a :: rest =>
    if (m != 'P' && m != 'G') || (k != 'S' && k != 'F') || c != ':' then none
    else
      -- The search begins behind the first byte of the path.
      match cut ':' rest with
      | (_, none) => none
      | (path, some after) =>
        let method := if m == 'P' then Method.post else Method.get
        let webDirectory := a :: path
        if k == 'S' then
          some { method, webDirectory, fileDirectory := after, target := none }
        else
          match cut ':' after with
          | (fileDirectory, none) =>
            some { method, webDirectory, fileDirectory, target := some webDirectory }
          | (fileDirectory, some target) =>
            some { method, webDirectory, fileDirectory, target := some target }
  -- The line must start with at least two letters and a ':'.
  | _ => none

/-- An empty line or a comment. -/
def passedOver (line : Text) : Bool :=
  line.isEmpty || line.head? == some '#'

def inQuotes (t : Text) : Text :=
  ("\"" : Text) ++ (t ++ ("\"" : Text))

/-- What is printed for an entry. -/
def Link.message (link : Link) : Text :=
  ("Linked page " : Text) ++ (inQuotes link.webDirectory ++ (" to local page " : Text) ++
    (inQuotes link.fileDirectory ++
      match link.target with
      | none => (".\n" : Text)
      | some target => (" which forwards to " : Text) ++ (inQuotes target ++ (".\n" : Text))))

/-- What is printed for a line that is no entry. -/
def invalidEntry (line : Text) : Text :=
  ("Invalid linkfile entry " : Text) ++ (inQuotes line ++ (".\n" : Text))

/-! ## Pages -/

/-- `staticWrapper` and `forwardingWrapper`. -/
inductive WebpageWrapper where
  | static (data : Text)
  | forwarding (data : Translation) (destination : Text)

/-- A page that the application has been given. -/
structure LinkedPage where
  method : Method
  path : Text
  wrapper : WebpageWrapper

section Linking

variable (longMax : Nat) (files : Text → Option Text)

/-- `readEntireFile`: a file that is not there is as good as an empty one. -/
def readEntireFile (name : Text) : Text :=
  (files name).getD []

/-- The wrapper that an entry makes. The template is parsed here, and not for each
request. -/
def Link.load (link : Link) : Exec LinkedPage :=
  match link.target with
  | none => .ok
    { method := link.method, path := link.webDirectory
      wrapper := .static (readEntireFile files link.fileDirectory) }
  | some target => do
    let data ← Translation.parse longMax (readEntireFile files link.fileDirectory)
    pure { method := link.method, path := link.webDirectory, wrapper := .forwarding data target }

/-- The pages linked so far, and the lines on the console. -/
structure Linked where
  pages : List LinkedPage := []
  console : List Text := []

/-- The body of the loop. -/
def linkStep (linked : Linked) (line : Text) : Progress Trap Linked :=
  if passedOver line then .next linked
  else
    match parseLink line with
    | none => .stop { linked with console := linked.console ++ [invalidEntry line] }
    | some link =>
      match link.load longMax files with
      | .error trap => .fail trap
      | .ok page => .next
        { pages := linked.pages ++ [page], console := linked.console ++ [link.message] }

/-- `linkPages`: the pages that are linked, and what it returns. -/
def linkPages (linkFile : Text) : Exec (Linked × Bool) :=
  match files linkFile with
  | none => .ok ({ console := [("Unable to find link file.\n" : Text)] }, false)
  | some text => loop (linkStep longMax files) (lines text) {}

end Linking

/-! ## The grammar -/

def Method.letter : Method → Byte
  | .post => 'P'
  | .get => 'G'

/-- How an entry is written. The first byte of the path may be anything. -/
inductive Link.Written : Link → Text → Prop
  | static {method : Method} {a : Byte} {path file : Text} : (':' : Byte) ∉ path →
      Link.Written { method, webDirectory := a :: path, fileDirectory := file, target := none }
        (method.letter :: 'S' :: ':' :: a :: (path ++ (':' : Byte) :: file))
  /-- Without a target the request is sent on to the path itself. -/
  | forwarding {method : Method} {a : Byte} {path file : Text} : (':' : Byte) ∉ path →
      (':' : Byte) ∉ file →
      Link.Written
        { method, webDirectory := a :: path, fileDirectory := file, target := some (a :: path) }
        (method.letter :: 'F' :: ':' :: a :: (path ++ (':' : Byte) :: file))
  | forwardingTo {method : Method} {a : Byte} {path file target : Text} : (':' : Byte) ∉ path →
      (':' : Byte) ∉ file →
      Link.Written { method, webDirectory := a :: path, fileDirectory := file, target := some target }
        (method.letter :: 'F' :: ':' :: a ::
          (path ++ (':' : Byte) :: (file ++ (':' : Byte) :: target)))

theorem letter_cases {m : Byte} (h : (m != 'P' && m != 'G') = false) :
    ∃ method : Method, m = method.letter ∧
      (if m == 'P' then Method.post else Method.get) = method := by
  rw [Bool.and_eq_false_iff, bne_eq_false_iff_eq, bne_eq_false_iff_eq] at h
  rcases h with rfl | rfl
  · exact ⟨.post, rfl, rfl⟩
  · exact ⟨.get, rfl, rfl⟩

theorem parseLink_written {link : Link} {line : Text} (h : link.Written line) :
    parseLink line = some link := by
  have hletter : ∀ method : Method, (method.letter != ('P' : Byte) &&
      method.letter != ('G' : Byte)) = false ∧
      (if method.letter == ('P' : Byte) then Method.post else Method.get) = method := by
    intro method
    cases method <;> decide
  have hkind : (('S' : Byte) == ('S' : Byte)) = true ∧ (('F' : Byte) == ('S' : Byte)) = false := by
    decide
  cases h with
  | static hpath =>
    rename_i method a path file
    simp only [parseLink, (hletter method).1, cut_append hpath, (hletter method).2, hkind.1]
    rfl
  | forwarding hpath hfile =>
    rename_i method a path file
    simp only [parseLink, (hletter method).1, cut_append hpath, cut_of_not_mem hfile,
      (hletter method).2, hkind.2]
    rfl
  | forwardingTo hpath hfile =>
    rename_i method a path file target
    simp only [parseLink, (hletter method).1, cut_append hpath, cut_append hfile,
      (hletter method).2, hkind.2]
    rfl

theorem written_parseLink {link : Link} {line : Text} (h : parseLink line = some link) :
    link.Written line := by
  unfold parseLink at h
  split at h
  · rename_i m k c a rest
    split at h
    · simp at h
    · rename_i hchecks
      simp only [Bool.or_eq_true, not_or, Bool.not_eq_true, bne_eq_false_iff_eq] at hchecks
      obtain ⟨⟨hm, hk⟩, rfl⟩ := hchecks
      obtain ⟨method, rfl, hmethod⟩ := letter_cases hm
      rw [hmethod] at h
      rcases mem_cases ':' rest with hrest | ⟨path, after, rfl, hpath⟩
      · simp [cut_of_not_mem hrest] at h
      · rw [cut_append hpath] at h
        dsimp only at h
        split at h
        · rename_i hstatic
          obtain rfl := beq_iff_eq.mp hstatic
          obtain rfl := Option.some.inj h
          exact .static hpath
        · rename_i hforwarding
          rw [Bool.and_eq_false_iff, bne_eq_false_iff_eq, bne_eq_false_iff_eq] at hk
          obtain rfl : k = ('F' : Byte) :=
            hk.resolve_left fun hstatic => hforwarding (beq_iff_eq.mpr hstatic)
          rcases mem_cases ':' after with hfile | ⟨file, target, rfl, hfile⟩
          · rw [cut_of_not_mem hfile] at h
            obtain rfl := Option.some.inj h
            exact .forwarding hpath hfile
          · rw [cut_append hfile] at h
            obtain rfl := Option.some.inj h
            exact .forwardingTo hpath hfile
  · simp at h

theorem parseLink_iff {link : Link} {line : Text} :
    parseLink line = some link ↔ link.Written line :=
  ⟨written_parseLink, parseLink_written⟩

/-- An entry is not passed over. -/
theorem Link.Written.not_passedOver {link : Link} {line : Text} (h : link.Written line) :
    passedOver line = false := by
  have hletter : ∀ (method : Method) (rest : Text), passedOver (method.letter :: rest) = false := by
    intro method rest
    cases method <;> rfl
  cases h <;> exact hletter _ _

/-! ## What is linked -/

/-- The lines of a link file, the entries in front of the first line that is none,
and that line if there is one. -/
inductive LinkFile : List Text → List Link → Option Text → Prop
  | done : LinkFile [] [] none
  | skip {line : Text} {rest : List Text} {links : List Link} {bad : Option Text} :
      passedOver line = true → LinkFile rest links bad → LinkFile (line :: rest) links bad
  | entry {line : Text} {rest : List Text} {link : Link} {links : List Link} {bad : Option Text} :
      link.Written line → LinkFile rest links bad → LinkFile (line :: rest) (link :: links) bad
  | invalid {line : Text} {rest : List Text} :
      passedOver line = false → (∀ link : Link, ¬ link.Written line) →
      LinkFile (line :: rest) [] (some line)

section Linking

variable {longMax : Nat} {files : Text → Option Text}

theorem linkStep_skip {linked : Linked} {line : Text} (h : passedOver line = true) :
    linkStep longMax files linked line = .next linked := by
  simp [linkStep, h]

theorem linkStep_entry {linked : Linked} {line : Text} {link : Link} (h : link.Written line) :
    linkStep longMax files linked line =
      match link.load longMax files with
      | .error trap => .fail trap
      | .ok page => .next
        { pages := linked.pages ++ [page], console := linked.console ++ [link.message] } := by
  simp [linkStep, h.not_passedOver, parseLink_written h]

theorem linkStep_invalid {linked : Linked} {line : Text} (hline : passedOver line = false)
    (h : ∀ link : Link, ¬ link.Written line) :
    linkStep longMax files linked line =
      .stop { linked with console := linked.console ++ [invalidEntry line] } := by
  have hnone : parseLink line = none := by
    rw [Option.eq_none_iff_forall_ne_some]
    exact fun link hlink => h link (written_parseLink hlink)
  simp [linkStep, hline, hnone]

/-- A line is passed over, is an entry, or is neither. -/
theorem line_cases (line : Text) :
    passedOver line = true ∨ (∃ link : Link, link.Written line) ∨
      (passedOver line = false ∧ ∀ link : Link, ¬ link.Written line) := by
  cases hline : passedOver line with
  | true => exact .inl rfl
  | false =>
    by_cases h : ∃ link : Link, link.Written line
    · exact .inr (.inl h)
    · exact .inr (.inr ⟨rfl, fun link hlink => h ⟨link, hlink⟩⟩)

theorem mapM_cons_eq_ok {link : Link} {links : List Link} {pages : List LinkedPage} :
    (link :: links).mapM (Link.load longMax files) = .ok pages ↔
      ∃ page rest, link.load longMax files = .ok page ∧
        links.mapM (Link.load longMax files) = .ok rest ∧ pages = page :: rest := by
  rw [List.mapM_cons]
  cases link.load longMax files with
  | error trap => simp [bind, Except.bind]
  | ok page =>
    cases links.mapM (Link.load longMax files) with
    | error trap => simp [bind, Except.bind]
    | ok rest => simp [bind, Except.bind, pure, Except.pure, eq_comm]

/-- The loop, from any state on. -/
theorem loops_linkStep {text : List Text} {first last : Linked} {all : Bool} :
    Loops (linkStep longMax files) text first last all ↔
      ∃ links bad pages, LinkFile text links bad ∧
        links.mapM (Link.load longMax files) = .ok pages ∧
        last.pages = first.pages ++ pages ∧
        last.console = first.console ++ (links.map Link.message ++ bad.toList.map invalidEntry) ∧
        all = bad.isNone := by
  induction text generalizing first with
  | nil =>
    constructor
    · intro h
      cases h
      exact ⟨[], none, [], .done, rfl, by simp, by simp, rfl⟩
    · rintro ⟨links, bad, pages, hfile, hpages, hlast, hconsole, rfl⟩
      cases hfile
      obtain rfl : [] = pages := by simpa [pure, Except.pure] using hpages
      obtain rfl : last = first := by
        cases last
        cases first
        simp_all
      exact .done
  | cons line text ih =>
    rcases line_cases line with hline | ⟨link, hlink⟩ | ⟨hline, hnone⟩
    · -- passed over
      constructor
      · intro h
        cases h with
        | next hstep hrest =>
          obtain rfl : first = _ := by simpa [linkStep_skip hline] using hstep
          obtain ⟨links, bad, pages, hfile, hothers⟩ := ih.mp hrest
          exact ⟨links, bad, pages, .skip hline hfile, hothers⟩
        | stop hstep => simp [linkStep_skip hline] at hstep
      · rintro ⟨links, bad, pages, hfile, hothers⟩
        apply Loops.next (linkStep_skip hline)
        cases hfile with
        | skip _ hfile => exact ih.mpr ⟨links, bad, pages, hfile, hothers⟩
        | entry hlink _ => simp [hlink.not_passedOver] at hline
        | invalid hfalse _ => simp [hfalse] at hline
    · -- an entry
      have hstep : linkStep longMax files first line = _ := linkStep_entry hlink
      constructor
      · intro h
        cases h with
        | next hnext hrest =>
          rw [hstep] at hnext
          cases hload : link.load longMax files with
          | error trap => simp [hload] at hnext
          | ok page =>
            obtain rfl : _ = _ := by simpa [hload] using hnext
            obtain ⟨links, bad, pages, hfile, hpages, hlast, hconsole, hall⟩ := ih.mp hrest
            exact ⟨link :: links, bad, page :: pages, .entry hlink hfile,
              mapM_cons_eq_ok.mpr ⟨page, pages, hload, hpages, rfl⟩, by simp [hlast],
              by simp [hconsole], hall⟩
        | stop hstop =>
          rw [hstep] at hstop
          cases hload : link.load longMax files <;> simp [hload] at hstop
      · rintro ⟨links, bad, pages, hfile, hpages, hlast, hconsole, hall⟩
        cases hfile with
        | skip hskip _ => simp [hlink.not_passedOver] at hskip
        | invalid _ hnone => exact absurd hlink (hnone link)
        | entry hwritten hfile =>
          obtain rfl : link = _ := by
            simpa [parseLink_written hlink] using parseLink_written hwritten
          obtain ⟨page, rest, hload, hrest, rfl⟩ := mapM_cons_eq_ok.mp hpages
          rw [hload] at hstep
          exact .next hstep (ih.mpr ⟨_, bad, rest, hfile, hrest, by simp [hlast], by simp [hconsole],
            hall⟩)
    · -- neither
      have hstep : linkStep longMax files first line = _ := linkStep_invalid hline hnone
      constructor
      · intro h
        cases h with
        | next hnext _ => simp [hstep] at hnext
        | stop hstop =>
          obtain rfl : _ = last := by simpa [hstep] using hstop
          exact ⟨[], some line, [], .invalid hline hnone, rfl, by simp, by simp, rfl⟩
      · rintro ⟨links, bad, pages, hfile, hpages, hlast, hconsole, rfl⟩
        cases hfile with
        | skip hskip _ => simp [hline] at hskip
        | entry hlink _ => exact absurd hlink (hnone _)
        | invalid _ _ =>
          obtain rfl : [] = pages := by simpa [pure, Except.pure] using hpages
          obtain rfl : last = { first with console := first.console ++ [invalidEntry line] } := by
            cases last
            simp_all
          exact .stop hstep

/-- The pages that are linked are those of the entries in front of the first line that
is no entry, no comment and not empty, in order; the console names each of them, and
then that line. `linkPages` returns whether there was none. -/
theorem linkPages_iff {linkFile text : Text} (hfile : files linkFile = some text) (linked : Linked)
    (all : Bool) :
    linkPages longMax files linkFile = .ok (linked, all) ↔
      ∃ links bad, LinkFile (lines text) links bad ∧
        links.mapM (Link.load longMax files) = .ok linked.pages ∧
        linked.console = links.map Link.message ++ bad.toList.map invalidEntry ∧
        all = bad.isNone := by
  unfold linkPages
  rw [hfile]
  change loop (linkStep longMax files) (lines text) {} = .ok (linked, all) ↔ _
  rw [loop_eq_ok, loops_linkStep]
  constructor
  · rintro ⟨links, bad, pages, htext, hpages, hlast, hconsole, hall⟩
    simp only [List.nil_append] at hlast hconsole
    exact ⟨links, bad, htext, hlast ▸ hpages, hconsole, hall⟩
  · rintro ⟨links, bad, htext, hpages, hconsole, hall⟩
    exact ⟨links, bad, linked.pages, htext, hpages, rfl, by simp [hconsole], hall⟩

end Linking

/-! ## A site -/

/-- What a login shows. -/
def loginPage : List Node :=
  [.block .code ("200" : Text) [.raw ("Logged In Successfully!" : Text)],
    .block .code ("401" : Text) [.raw ("Failed to log in!" : Text)]]

/-- The home page. -/
def homePage : List Node :=
  [.block .code ("401" : Text) [.raw ("Login" : Text)],
    .block .code ("200" : Text) [.raw ("Hello " : Text), .statement .val ("Username" : Text)]]

theorem loginPage_wf : Node.WfAll (2 ^ 31 - 1) loginPage := by
  simp only [loginPage, Node.WfAll, Node.Wf, Node.Apart, Node.Plain, Node.CodeInRange, and_true,
    true_and]
  decide +kernel

theorem homePage_wf : Node.WfAll (2 ^ 31 - 1) homePage := by
  simp only [homePage, Node.WfAll, Node.Wf, Node.Apart, Node.Plain, Node.CodeInRange, and_true,
    true_and]
  decide +kernel

/-- The last line but one is no entry. -/
def siteLines : List Text :=
  [("GS:/login:Login.html" : Text), [], ("#USERS" : Text),
    ("PF:/request:Login_Result.htmt" : Text), ("GF:/home:Home.htmt:/user/me" : Text),
    ("GF" : Text), ("GS:/create:Register.html" : Text)]

def siteFiles (name : Text) : Option Text :=
  if name = ("Link.txt" : Text) then some (unlines siteLines)
  else if name = ("Login.html" : Text) then some ("<form>" : Text)
  else if name = ("Login_Result.htmt" : Text) then some (Node.printAll loginPage)
  else if name = ("Home.htmt" : Text) then some (Node.printAll homePage)
  else none

def loginLink : Link where
  method := .get
  webDirectory := ("/login" : Text)
  fileDirectory := ("Login.html" : Text)
  target := none

def requestLink : Link where
  method := .post
  webDirectory := ("/request" : Text)
  fileDirectory := ("Login_Result.htmt" : Text)
  target := some ("/request" : Text)

def homeLink : Link where
  method := .get
  webDirectory := ("/home" : Text)
  fileDirectory := ("Home.htmt" : Text)
  target := some ("/user/me" : Text)

def staticLogin : LinkedPage where
  method := .get
  path := ("/login" : Text)
  wrapper := .static ("<form>" : Text)

def linkedRequest : LinkedPage where
  method := .post
  path := ("/request" : Text)
  wrapper := .forwarding (.mk .always (.name []) (Node.buildAll loginPage)) ("/request" : Text)

def linkedHome : LinkedPage where
  method := .get
  path := ("/home" : Text)
  wrapper := .forwarding (.mk .always (.name []) (Node.buildAll homePage)) ("/user/me" : Text)

theorem load_loginLink : loginLink.load (2 ^ 31 - 1) siteFiles = .ok staticLogin := by
  have hfile : readEntireFile siteFiles loginLink.fileDirectory = ("<form>" : Text) := by
    decide +kernel
  simp only [Link.load, show loginLink.target = none from rfl, hfile]
  rfl

theorem load_requestLink : requestLink.load (2 ^ 31 - 1) siteFiles = .ok linkedRequest := by
  have hfile : readEntireFile siteFiles requestLink.fileDirectory = Node.printAll loginPage := by
    decide +kernel
  simp only [Link.load, show requestLink.target = some _ from rfl, hfile, Translation.parse,
    Node.parseWithin_printAll loginPage_wf (Nat.le_refl _)]
  rfl

theorem load_homeLink : homeLink.load (2 ^ 31 - 1) siteFiles = .ok linkedHome := by
  have hfile : readEntireFile siteFiles homeLink.fileDirectory = Node.printAll homePage := by
    decide +kernel
  simp only [Link.load, show homeLink.target = some _ from rfl, hfile, Translation.parse,
    Node.parseWithin_printAll homePage_wf (Nat.le_refl _)]
  rfl

/-- The pages in front of the line that is no entry are linked, and not the one behind
it. -/
theorem linkPages_site :
    linkPages (2 ^ 31 - 1) siteFiles ("Link.txt" : Text) =
      .ok ({ pages := [staticLogin, linkedRequest, linkedHome]
             console := [loginLink.message, requestLink.message, homeLink.message,
               invalidEntry ("GF" : Text)] }, false) := by
  have hfile : siteFiles ("Link.txt" : Text) = some (unlines siteLines) := if_pos rfl
  have hlines : lines (unlines siteLines) = siteLines := lines_unlines (by decide +kernel)
  have hnone : parseLink ("GF" : Text) = none := by decide +kernel
  have hlinks : LinkFile siteLines [loginLink, requestLink, homeLink] (some ("GF" : Text)) := by
    refine .entry (parseLink_iff.mp ?_) (.skip ?_ (.skip ?_ (.entry (parseLink_iff.mp ?_)
      (.entry (parseLink_iff.mp ?_) (.invalid ?_ fun link hlink => ?_)))))
    case refine_7 => exact Option.some_ne_none link ((parseLink_written hlink).symm.trans hnone)
    all_goals decide +kernel
  have hpages : [loginLink, requestLink, homeLink].mapM (Link.load (2 ^ 31 - 1) siteFiles) =
      .ok [staticLogin, linkedRequest, linkedHome] := by
    rw [mapM_cons_eq_ok]
    refine ⟨_, _, load_loginLink, mapM_cons_eq_ok.mpr ⟨_, _, load_requestLink, ?_, rfl⟩, rfl⟩
    exact mapM_cons_eq_ok.mpr ⟨_, [], load_homeLink, rfl, rfl⟩
  exact (linkPages_iff hfile _ _).mpr ⟨_, _, hlines ▸ hlinks, hpages, rfl, rfl⟩

end WFA
