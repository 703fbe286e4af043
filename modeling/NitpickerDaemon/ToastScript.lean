import NitpickerDaemon.PyValue
import NitpickerDaemon.Text.Literals

/-!
The script of a toast notification: how PowerShell cuts it into code and string literals.
-/

set_option autoImplicit false

namespace Nitpicker

open Text

/-- The characters that PowerShell takes for a single quote. -/
def SINGLE_QUOTES : List Nat := [0x27, 0x2018, 0x2019, 0x201A, 0x201B]

def single_quote (c : Char) : Bool := SINGLE_QUOTES.contains c.toNat

/-- A single quote that `_ps_escape` does not know. -/
def typographic (c : Char) : Bool := single_quote c && c ≠ '\''

namespace NotificationService

/-- What `text.replace("'", "''").replace("\n", "`n")` makes of one character. -/
def ps_escape_char (c : Char) : List Char :=
  if c = '\'' then ['\'', '\''] else if c = '\n' then "`n".toList else [c]

def ps_escape (text : String) : String := String.ofList (text.toList.flatMap ps_escape_char)

/-- The script up to the tag name, and then between one literal and the next. -/
def TEMPLATE : String :=
  "[Windows.UI.Notifications.ToastNotificationManager, Windows.UI.Notifications, " ++
  "ContentType = WindowsRuntime] > $null; " ++
  "$template = [Windows.UI.Notifications.ToastNotificationManager]" ++
  "::GetTemplateContent([Windows.UI.Notifications.ToastTemplateType]::ToastText02); " ++
  "$text = $template.GetElementsByTagName("

def FIRST_ITEM : String := "); $text.Item(0).AppendChild($template.CreateTextNode("

def SECOND_ITEM : String := ")) > $null; $text.Item(1).AppendChild($template.CreateTextNode("

def NOTIFIER : String :=
  ")) > $null; $toast = [Windows.UI.Notifications.ToastNotification]::new($template); " ++
  "[Windows.UI.Notifications.ToastNotificationManager]::CreateToastNotifier("

def SHOW : String := ").Show($toast)"

/-- The text of the second line of a toast. -/
def text_lines (body detail : String) : String :=
  if detail = "" then body else body ++ "\n" ++ detail

/-- The script of `_send_toast`. -/
def ps_script (title body detail : String) : String :=
  TEMPLATE ++ "'text'" ++ FIRST_ITEM ++ "'" ++ ps_escape title ++ "'" ++ SECOND_ITEM ++ "'" ++
    ps_escape (text_lines body detail) ++ "'" ++ NOTIFIER ++ "'Nitpicker Daemon'" ++ SHOW

/-- The code of the script, each part with the content of the literal after it. -/
def script_parts (title body detail : String) : List (List Char × List Char) :=
  [(TEMPLATE.toList, "text".toList), (FIRST_ITEM.toList, (ps_escape title).toList),
    (SECOND_ITEM.toList, (ps_escape (text_lines body detail)).toList),
    (NOTIFIER.toList, "Nitpicker Daemon".toList)]

/-- The pieces the script is meant to have: the code of the template, and a literal for each
text. -/
def script_pieces (title body detail : String) : List (Piece Char) :=
  template_pieces '\'' SHOW.toList (script_parts title body detail)

/-- In each run of single quotes of the text, an even number is typographic. -/
def Paired (text : String) : Prop :=
  ∀ run ∈ text.toList.splitOnP (!single_quote ·), Even (run.countP typographic)

section Script

variable {title body detail text : String}

theorem script_text : (ps_script title body detail).toList =
    template_text '\'' SHOW.toList (script_parts title body detail) := by
  have htext : "'text'".toList = '\'' :: ("text".toList ++ ['\'']) := rfl
  have hname : "'Nitpicker Daemon'".toList = '\'' :: ("Nitpicker Daemon".toList ++ ['\'']) := rfl
  have hquote : "'".toList = ['\''] := rfl
  simp only [ps_script, script_parts, template_text, String.toList_append, htext, hname, hquote,
    List.append_assoc, List.cons_append, List.nil_append, -String.reduceToList]

theorem plain_code {code : List Char}
    (h : (!code.isEmpty && code.all (!single_quote ·)) = true) :
    Plain single_quote (String.ofList code).toList := by
  rw [Bool.and_eq_true, List.all_eq_true] at h
  rw [String.toList_ofList]
  exact ⟨by simpa using h.1, fun c hc => by simpa using h.2 c hc⟩

theorem plain_append {code code' : String} (h : Plain single_quote code.toList)
    (h' : Plain single_quote code'.toList) : Plain single_quote (code ++ code').toList := by
  rw [String.toList_append]
  refine ⟨fun hnil => h.1 (List.append_eq_nil_iff.mp hnil).1, fun c hc => ?_⟩
  exact (List.mem_append.mp hc).elim (h.2 c) (h'.2 c)

theorem plain_template : Plain single_quote TEMPLATE.toList :=
  plain_append (plain_append (plain_append (plain_append (plain_code (by decide))
    (plain_code (by decide))) (plain_code (by decide)))
    (plain_code (by decide))) (plain_code (by decide))

theorem plain_first : Plain single_quote FIRST_ITEM.toList := plain_code (by decide)

theorem plain_second : Plain single_quote SECOND_ITEM.toList := plain_code (by decide)

theorem plain_notifier : Plain single_quote NOTIFIER.toList :=
  plain_append (plain_code (by decide)) (plain_code (by decide))

theorem plain_show : Plain single_quote SHOW.toList := plain_code (by decide)

theorem plain_parts : ∀ part ∈ script_parts title body detail, Plain single_quote part.1 := by
  simp only [script_parts, List.forall_mem_cons]
  exact ⟨plain_template, plain_first, plain_second, plain_notifier, by simp⟩

/-- An escaped apostrophe is two; the other quotes are left as they are. -/
theorem even_runs_escape (odd : Bool) (cs : List Char) :
    even_runs single_quote single_quote odd (cs.flatMap ps_escape_char) =
      even_runs single_quote typographic odd cs := by
  have hquote : single_quote '\'' = true := by decide
  have htypographic : typographic '\'' = false := by decide
  have htick : single_quote '`' = false := by decide
  have hn : single_quote 'n' = false := by decide
  have hfeed : single_quote '\n' = false := by decide
  induction cs generalizing odd with
  | nil => rfl
  | cons c cs ih =>
    rw [List.flatMap_cons]
    by_cases happ : c = '\''
    · subst happ
      simp [ps_escape_char, even_runs, hquote, htypographic, ih]
    · by_cases hline : c = '\n'
      · subst hline
        simp [ps_escape_char, even_runs, htick, hn, hfeed, ih]
      · have hsame : typographic c = single_quote c := by simp [typographic, happ]
        simp [ps_escape_char, even_runs, happ, hline, hsame, ih]

theorem even_runs_paired :
    even_runs single_quote single_quote false (ps_escape text).toList = true ↔ Paired text := by
  rw [ps_escape, String.toList_ofList, even_runs_escape, even_runs_iff]
  rfl

/-- PowerShell reads the script as it is meant, with each text as one string literal, if and only
if the typographic quotes of the texts come in even numbers in each run of quotes. -/
theorem toast_lexed_iff (title body detail : String) :
    lex single_quote (ps_script title body detail).toList = script_pieces title body detail ↔
      Paired title ∧ Paired (text_lines body detail) := by
  have htag : even_runs single_quote single_quote false "text".toList = true := by decide
  have hname : even_runs single_quote single_quote false "Nitpicker Daemon".toList = true := by decide
  rw [script_text, script_pieces, lex_template_iff (by decide) plain_show plain_parts]
  simp only [script_parts, List.forall_mem_cons, htag, hname, even_runs_paired]
  simp

end Script

/-- The apostrophe of the summary is typographic: what stands after it is code, and the rest of the
script is read the other way round. -/
theorem typographic_breaks_out : ∃ pieces,
    lex single_quote (ps_script "Nitpicker" "it’s done" "").toList =
      [.code TEMPLATE.toList, .literal "'text'".toList, .code FIRST_ITEM.toList,
        .literal "'Nitpicker'".toList, .code SECOND_ITEM.toList, .literal "'it’".toList,
        .code "s done".toList] ++ pieces ∧
    lex single_quote (ps_script "Nitpicker" "it’s done" "").toList ≠
      script_pieces "Nitpicker" "it’s done" "" := by
  have hcode : Plain single_quote "s done".toList := plain_code (by decide)
  have htitle : (ps_escape "Nitpicker").toList = "Nitpicker".toList := by decide +kernel
  have hbody : (ps_escape (text_lines "it’s done" "")).toList =
      "it".toList ++ '’' :: "s done".toList := by decide +kernel
  have htext : (ps_script "Nitpicker" "it’s done" "").toList =
      TEMPLATE.toList ++ '\'' :: ("text".toList ++ '\'' :: (FIRST_ITEM.toList ++ '\'' ::
        ("Nitpicker".toList ++ '\'' :: (SECOND_ITEM.toList ++ '\'' :: ("it".toList ++ '’' ::
          ("s done".toList ++ '\'' :: (NOTIFIER.toList ++ '\'' ::
            ("Nitpicker Daemon".toList ++ '\'' :: SHOW.toList)))))))) := by
    rw [script_text]
    simp only [script_parts, template_text, htitle, hbody, List.append_assoc, List.cons_append]
  have hpieces : lex single_quote (ps_script "Nitpicker" "it’s done" "").toList =
      [.code TEMPLATE.toList, .literal "'text'".toList, .code FIRST_ITEM.toList,
        .literal "'Nitpicker'".toList, .code SECOND_ITEM.toList, .literal "'it’".toList,
        .code "s done".toList] ++ lex single_quote ('\'' :: (NOTIFIER.toList ++ '\'' ::
          ("Nitpicker Daemon".toList ++ '\'' :: SHOW.toList))) := by
    rw [htext, lex_part (by decide) (by decide) plain_template (by decide) plain_first,
      lex_part (by decide) (by decide) plain_first (by decide) plain_second,
      lex_part (by decide) (by decide) plain_second (by decide) hcode,
      lex_code hcode.2 hcode.1 (by decide)]
    rfl
  refine ⟨_, hpieces, fun h => ?_⟩
  have hsixth : (script_pieces "Nitpicker" "it’s done" "")[5]? = some (.literal
      ('\'' :: ((ps_escape (text_lines "it’s done" "")).toList ++ ['\'']))) := rfl
  rw [← h, hpieces, hbody] at hsixth
  exact absurd hsixth (by decide)

end NotificationService

end Nitpicker
