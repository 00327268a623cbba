namespace NpServers

/-!
# Texts shared by the two servers

The texts that `np_single_proc.c` and `np_multi_proc.c` send to their clients.
Both programs build them from the same pieces; `cat_num_to_msg` appends the
decimal digits of a number.
-/

/-- The name of a client until it chooses one. -/
def noName : String :=
  "(no name)"

/-- `print_login_msg`. -/
def loginMsg
    (name peer : String) : String :=
  "*** User '" ++ name ++ "' entered from " ++ peer ++ ". ***\n"

/-- `print_logout_msg`. -/
def logoutMsg
    (name : String) : String :=
  "*** User '" ++ name ++ "' left. ***\n"

/-- The text of `cmd_tell` for the receiver. -/
def tellMsg
    (name text : String) : String :=
  "*** " ++ name ++ " told you ***: " ++ text ++ "\n"

/-- The text of `cmd_yell`. -/
def yellMsg
    (name text : String) : String :=
  "*** " ++ name ++ " yelled ***: " ++ text ++ "\n"

/-- The announcement of `cmd_name`. -/
def namedMsg
    (peer name : String) : String :=
  "*** User from " ++ peer ++ " is named '" ++ name ++ "'. ***\n"

/-- The refusal of `cmd_name`. -/
def nameExistsMsg
    (name : String) : String :=
  "*** User '" ++ name ++ "' already exists. ***\n"

/-- `print_user_pipe_msg` with a positive mode, for `<`. -/
def receivedMsg
    (name : String)
    (id : Nat)
    (targetName : String)
    (targetId : Nat)
    (cmd : String) : String :=
  "*** " ++ name ++ " (#" ++ toString id ++ ") just received from " ++
    targetName ++ " (#" ++ toString targetId ++ ") by '" ++ cmd ++ "' ***\n"

/-- `print_user_pipe_msg` with a positive mode, for `>`. -/
def pipedMsg
    (name : String)
    (id : Nat)
    (targetName : String)
    (targetId : Nat)
    (cmd : String) : String :=
  "*** " ++ name ++ " (#" ++ toString id ++ ") just piped '" ++ cmd ++
    "' to " ++ targetName ++ " (#" ++ toString targetId ++ ") ***\n"

/-- `print_user_pipe_msg` with mode 0, for `<`. -/
def pipeMissingMsg
    (id targetId : Nat) : String :=
  "*** Error: the pipe #" ++ toString targetId ++ "->#" ++ toString id ++
    " does not exist yet. ***\n"

/-- `print_user_pipe_msg` with mode 0, for `>`. -/
def pipeExistsMsg
    (id targetId : Nat) : String :=
  "*** Error: the pipe #" ++ toString id ++ "->#" ++ toString targetId ++
    " already exists. ***\n"

/-- The error for an unknown user, of `cmd_tell` and `print_user_pipe_msg`. -/
def noUserMsg
    (targetId : Nat) : String :=
  "*** Error: user #" ++ toString targetId ++ " does not exist yet. ***\n"

end NpServers
