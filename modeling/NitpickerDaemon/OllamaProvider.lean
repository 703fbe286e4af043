import NitpickerDaemon.PyText

/-!
The Ollama provider: reading a streamed answer token by token until it is done, ends or
takes too long.
-/

set_option autoImplicit false

namespace Nitpicker

/-- One turn of the read loop: the clock before it, and what `readline` gives. -/
structure StreamRead where
  now : Rat
  line : Except PyExc ByteArray

/-- What a request to Ollama opens: the clock when the deadline was set, and the turns of the
read loop until the clock has passed the deadline. -/
structure OllamaStream where
  start : Rat
  reads : List StreamRead

structure OllamaProvider where
  model : String
  base_url : String
  total_timeout : Int := 180

namespace OllamaProvider

def build_prompt (system_prompt user_prompt : String) : String :=
  let system := if system_prompt = "" then [] else ["[SYSTEM]\n" ++ system_prompt ++ "\n"]
  "\n".intercalate (system ++ ["[USER]\n" ++ user_prompt])

def generate_body (p : OllamaProvider) (system_prompt user_prompt : String)
    (response_format : PyDict) : PyDict :=
  [("model", .str p.model), ("prompt", .str (build_prompt system_prompt user_prompt)),
    ("stream", .bool true), ("format", .dict response_format),
    ("options", .dict [("temperature", .float 0), ("num_predict", .int 4096)])]

def unicodeDecodeError : PyExc :=
  ⟨"UnicodeDecodeError", [.valueError], "'utf-8' codec can't decode bytes"⟩

def deadline_passed (p : OllamaProvider) (tokens : List PyVal) : PyExc :=
  timeoutError ("Ollama 응답 생성 " ++ toString p.total_timeout ++ "s 초과 (수신 토큰 " ++
    toString tokens.length ++ "개)")

/-- The read loop, with the tokens read so far. -/
def read_tokens (py : Python) (p : OllamaProvider) (deadline : Rat) :
    List StreamRead → List PyVal → Except PyExc (List PyVal)
  | [], tokens => .error (p.deadline_passed tokens)
  | r :: reads, tokens =>
    if deadline < r.now then .error (p.deadline_passed tokens) else
      match r.line with
      | .error e => .error e
      | .ok line =>
        if line.isEmpty then .ok tokens else
          match String.fromUTF8? line with
          | none => .error unicodeDecodeError
          | some text =>
            match py.loads text with
            -- a line that is no JSON is skipped
            | .error e =>
              if e.is_json_decode_error then read_tokens py p deadline reads tokens else .error e
            | .ok (.dict chunk) =>
              let token := PyDict.getD chunk "response" (.str "")
              let tokens := if token.truthy then tokens ++ [token] else tokens
              if (PyDict.getD chunk "done" (.bool false)).truthy then .ok tokens
              else read_tokens py p deadline reads tokens
            | .ok chunk => .error (attributeError chunk "get")

/-- `"".join(tokens)`, with the number of the first token left. -/
def join_tokens : Nat → List PyVal → Except PyExc String
  | _, [] => .ok ""
  | i, .str s :: tokens => do
    let rest ← join_tokens (i + 1) tokens
    pure (s ++ rest)
  | i, token :: _ => .error (typeError ("sequence item " ++ toString i ++
      ": expected str instance, " ++ token.type_name ++ " found"))

/-- The concatenated tokens of a streamed answer. -/
def response_text (py : Python) (p : OllamaProvider) (s : OllamaStream) :
    Except PyExc String := do
  let tokens ← read_tokens py p (s.start + p.total_timeout) s.reads []
  join_tokens 0 tokens

def unavailable (p : OllamaProvider) : PyExc :=
  runtimeError ("Ollama 서버 미가용 또는 모델 '" ++ p.model ++ "' 미설치 (base_url=" ++ p.base_url ++
    "). silent-PASS 금지 → 리뷰 차단.")

/-- The JSON value of the text of an answer. -/
def parse_mini (py : Python) (response_text : String) : Except PyExc PyVal :=
  if strip response_text = "" then
    .error (runtimeError "Ollama가 빈 응답을 반환했습니다 (mini 리뷰 불가)")
  else
    match py.loads response_text with
    | .ok value => .ok value
    | .error e =>
      if e.is_json_decode_error || e.isInstance .valueError then
        .error (runtimeError ("Ollama 응답 JSON 파싱 실패: " ++ e.message ++ "; 원문 앞부분=" ++
          py.repr (.str (String.ofList (response_text.toList.take 200)))))
      else .error e

end OllamaProvider

end Nitpicker
