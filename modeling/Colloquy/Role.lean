/-!
# Colloquy — roles

Every message has a role, written as a tag. The roles that have a meaning of their
own are the constructors of `Role`; any other tag is carried along as it is.

* `Role.known` — the roles with a meaning, in their order.
* `Role.isOption`, `Role.isToolDirective`, `Role.printsInline` — the classes of roles.
-/

namespace Colloquy

inductive Role where
  | user
  | system
  | assistant
  | tool
  | functionCall
  | functionCallOutput
  | image
  | pdf
  | websearch
  /-- Carries the handle under which a backend goes on with a conversation. -/
  | previousResponseId
  | import_
  | continue_
  | last
  | file
  | directory
  | task
  | inlineTask
  | execTask
  | job
  | inlineJob
  | mcp
  | kb
  | association
  | option
  | stickyOption
  | format
  | endpoint
  | model
  | backend
  | agent
  | persist
  | clear
  | clearTools
  | clearAssociations
  | skip
  | other (tag : String)
  deriving DecidableEq, Repr, Inhabited

namespace Role

/-- The roles with a meaning of their own. -/
def known : List Role :=
  [.user, .system, .assistant, .tool, .functionCall, .functionCallOutput, .image, .pdf, .websearch,
   .previousResponseId, .import_, .continue_, .last, .file, .directory, .task, .inlineTask,
   .execTask, .job, .inlineJob, .mcp, .kb, .association, .option, .stickyOption, .format,
   .endpoint, .model, .backend, .agent, .persist, .clear, .clearTools, .clearAssociations, .skip]

/-- The tag of a role. -/
def tag : Role → String
  | .user => "user"
  | .system => "system"
  | .assistant => "assistant"
  | .tool => "tool"
  | .functionCall => "function_call"
  | .functionCallOutput => "function_call_output"
  | .image => "image"
  | .pdf => "pdf"
  | .websearch => "websearch"
  | .previousResponseId => "previous_response_id"
  | .import_ => "import"
  | .continue_ => "continue"
  | .last => "last"
  | .file => "file"
  | .directory => "directory"
  | .task => "task"
  | .inlineTask => "inline_task"
  | .execTask => "exec_task"
  | .job => "job"
  | .inlineJob => "inline_job"
  | .mcp => "mcp"
  | .kb => "kb"
  | .association => "association"
  | .option => "option"
  | .stickyOption => "sticky_option"
  | .format => "format"
  | .endpoint => "endpoint"
  | .model => "model"
  | .backend => "backend"
  | .agent => "agent"
  | .persist => "persist"
  | .clear => "clear"
  | .clearTools => "clear_tools"
  | .clearAssociations => "clear_associations"
  | .skip => "skip"
  | .other tag => tag

/-- The role of a tag. -/
def ofTag (tag : String) : Role :=
  (known.find? fun role => role.tag == tag).getD (.other tag)

def isKnown : Role → Bool
  | .other _ => false
  | _ => true

/-- Roles that set an option of a run and are no content of the conversation. -/
def isOption : Role → Bool
  | .option | .stickyOption | .format | .endpoint | .model | .backend | .agent | .persist
  | .previousResponseId => true
  | _ => false

/-- Roles that put tools into the catalogue or take them out. -/
def isToolDirective : Role → Bool
  | .tool | .mcp | .kb | .association | .clearTools | .clearAssociations => true
  | _ => false

/-- Roles whose messages are written on one line where that is possible. -/
def printsInline : Role → Bool
  | .option | .previousResponseId | .functionCall | .functionCallOutput => true
  | _ => false

end Role

end Colloquy
