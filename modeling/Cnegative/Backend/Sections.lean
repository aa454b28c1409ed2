import Cnegative.Backend.Builtins

namespace Cnegative

namespace Llvm

/-! The sections of the runtime prelude, by the names of their functions. -/

/-- The hosts that the runtime sources tell apart by `_WIN32` and `__linux__`. -/
inductive Host where
  | windows
  | linux
  | other
  deriving DecidableEq, Repr

/-- `cn_is_builtin_stdlib_module_name`: the modules that the loader builds in. -/
def isBuiltinStdlibModuleName (host : Host) (moduleName : Name) : Bool :=
  moduleName == "std.math" || moduleName == "std.bytes" || moduleName == "std.ipc" ||
    moduleName == "std.lines" || moduleName == "std.strings" || moduleName == "std.text" ||
    moduleName == "std.parse" || moduleName == "std.fs" || moduleName == "std.io" ||
    moduleName == "std.term" || moduleName == "std.time" || moduleName == "std.env" ||
    moduleName == "std.path" || moduleName == "std.net" ||
    (host == .linux && moduleName == "std.x11") || moduleName == "std.process"

theorem linux_of_x11 {host : Host} (hknown : isBuiltinStdlibModuleName host "std.x11" = true) :
    host = .linux := by
  cases host with
  | linux => rfl
  | windows | other => exact absurd hknown (by decide)

/-- The functions that a section defines, those that it declares, and those that its
own functions name outside of it. -/
structure Section where
  defines : List String
  declares : List String
  calls : List String

def emitRuntimeDecls (host : Host) : Section where
  defines := []
  declares :=
    ["@printf", "@puts", "@getchar", "@putchar", "@fflush", "@strlen", "@strcmp", "@strstr",
    "@memcmp", "@memcpy", "@memmove", "@malloc", "@realloc", "@snprintf", "@free", "@atexit",
    "@fopen", "@fclose", "@fgetc", "@fwrite", "@getenv", "@remove", "@rename", "@exit", "@socket",
    "@setsockopt", "@connect", "@bind", "@listen", "@accept", "@send", "@sendto", "@recv",
    "@recvfrom", "@htons", "@ntohs", "@inet_addr"] ++
    match host with
    | .windows =>
        ["@_getch", "@_kbhit", "@_getcwd", "@GetStdHandle", "@GetConsoleMode", "@SetConsoleMode",
        "@GetConsoleScreenBufferInfo", "@Sleep", "@GetSystemTimeAsFileTime", "@WSAStartup",
        "@closesocket", "@_mkdir", "@_rmdir"]
    | _ =>
        ["@isatty", "@signal", "@read", "@poll", "@ioctl", "@tcgetattr", "@tcsetattr", "@cfmakeraw",
        "@wcwidth", "@timespec_get", "@getcwd", "@usleep", "@close", "@mkdir", "@rmdir"]
  calls := []

def emitRuntimeCore : Section where
  defines :=
    ["@cn_track_str", "@cn_free_str", "@cn_zone_enter", "@cn_zone_alloc", "@cn_zone_release"]
  declares := []
  calls :=
    ["@free", "@malloc"]

def emitRuntimeBytes : Section where
  defines :=
    ["@cn_bytes_normalize_capacity", "@cn_bytes_buffer_ensure", "@cn_bytes_new",
    "@cn_bytes_with_capacity", "@cn_bytes_free", "@cn_bytes_clear", "@cn_bytes_length",
    "@cn_bytes_capacity", "@cn_bytes_slice", "@cn_bytes_push", "@cn_bytes_append", "@cn_bytes_get",
    "@cn_bytes_set"]
  declares := []
  calls :=
    ["@free", "@malloc", "@memcpy", "@realloc"]

def emitRuntimeIpc : Section where
  defines :=
    ["@cn_ipc_spawn", "@cn_ipc_stdin_write", "@cn_ipc_stdin_write_line", "@cn_ipc_stdin_close",
    "@cn_ipc_stdout_read", "@cn_ipc_stdout_read_line", "@cn_ipc_request_line",
    "@cn_ipc_stderr_read", "@cn_ipc_stderr_read_line", "@cn_ipc_wait", "@cn_ipc_kill",
    "@cn_ipc_release"]
  declares :=
    ["@cn_ipc_native_spawn", "@cn_ipc_native_stdin_write", "@cn_ipc_native_stdin_write_line",
    "@cn_ipc_native_stdin_close", "@cn_ipc_native_stdout_read", "@cn_ipc_native_stdout_read_line",
    "@cn_ipc_native_stderr_read", "@cn_ipc_native_stderr_read_line", "@cn_ipc_native_wait",
    "@cn_ipc_native_kill", "@cn_ipc_native_release"]
  calls :=
    ["@strlen"]

def emitRuntimeLines : Section where
  defines :=
    ["@cn_lines_normalize_capacity", "@cn_lines_array_size", "@cn_lines_dup",
    "@cn_lines_free_items", "@cn_lines_buffer_ensure", "@cn_lines_new", "@cn_lines_with_capacity",
    "@cn_lines_free", "@cn_lines_clear", "@cn_lines_length", "@cn_lines_capacity", "@cn_lines_get",
    "@cn_lines_set", "@cn_lines_insert", "@cn_lines_push", "@cn_lines_remove"]
  declares := []
  calls :=
    ["@free", "@malloc", "@memcpy", "@memmove", "@realloc", "@strlen"]

def emitRuntimeStrings : Section where
  defines :=
    ["@cn_dup_cstr", "@cn_dup_range", "@cn_concat_str", "@cn_from_int", "@cn_starts_with",
    "@cn_ends_with"]
  declares := []
  calls :=
    ["@cn_track_str", "@malloc", "@memcmp", "@memcpy", "@snprintf", "@strlen"]

def emitRuntimeText : Section where
  defines :=
    ["@cn_text_new", "@cn_text_with_capacity", "@cn_text_free", "@cn_text_clear", "@cn_text_length",
    "@cn_text_capacity", "@cn_text_push_byte", "@cn_text_slice", "@cn_text_append",
    "@cn_text_append_int", "@cn_text_build"]
  declares := []
  calls :=
    ["@cn_bytes_append", "@cn_bytes_capacity", "@cn_bytes_clear", "@cn_bytes_free",
    "@cn_bytes_length", "@cn_bytes_new", "@cn_bytes_push", "@cn_bytes_slice",
    "@cn_bytes_with_capacity", "@cn_dup_range", "@snprintf", "@strlen"]

def emitRuntimeParse : Section where
  defines :=
    ["@cn_parse_bool", "@cn_parse_int"]
  declares := []
  calls :=
    ["@strcmp"]

def emitRuntimeMath : Section where
  defines :=
    ["@cn_math_abs", "@cn_math_sign", "@cn_math_square", "@cn_math_cube", "@cn_math_min",
    "@cn_math_max", "@cn_math_is_even", "@cn_math_is_odd", "@cn_math_clamp", "@cn_math_between",
    "@cn_math_distance", "@cn_math_gcd", "@cn_math_lcm"]
  declares := []
  calls := []

def emitRuntimeTime (host : Host) : Section where
  defines :=
    ["@cn_time_now_ms", "@cn_time_sleep_ms"]
  declares := []
  calls :=
    match host with
    | .windows => ["@GetSystemTimeAsFileTime", "@Sleep"]
    | _ => ["@timespec_get", "@usleep"]

def emitRuntimeEnv : Section where
  defines :=
    ["@cn_env_has", "@cn_env_get"]
  declares := []
  calls :=
    ["@cn_dup_cstr", "@getenv"]

def emitRuntimeNet (host : Host) : Section where
  defines :=
    ["@cn_net_ensure_init", "@cn_net_resolve_port", "@cn_net_resolve_host", "@cn_net_init_sockaddr",
    "@cn_net_sockaddr_port", "@cn_net_dup_sockaddr_host", "@cn_net_enable_reuseaddr",
    "@cn_net_open_socket", "@cn_net_open_datagram_socket", "@cn_net_connect_native",
    "@cn_net_bind_native", "@cn_net_listen_native", "@cn_net_accept_native", "@cn_net_close_native",
    "@cn_net_send_all", "@cn_net_send_to_native", "@cn_net_recv_chunk", "@cn_net_recv_from_native",
    "@cn_net_is_ipv4", "@cn_net_join_host_port", "@cn_net_tcp_connect", "@cn_net_tcp_listen",
    "@cn_net_udp_bind", "@cn_net_accept", "@cn_net_send", "@cn_net_udp_send_to", "@cn_net_recv",
    "@cn_net_udp_recv_from", "@cn_net_close"]
  declares := []
  calls :=
    ["@accept", "@bind", "@cn_track_str", "@connect", "@free", "@htons", "@inet_addr", "@listen",
    "@malloc", "@ntohs", "@recv", "@recvfrom", "@send", "@sendto", "@setsockopt", "@snprintf",
    "@socket", "@strcmp", "@strlen"] ++
    match host with
    | .windows =>
        ["@WSAStartup", "@closesocket"]
    | _ =>
        ["@close"]

def emitRuntimePath : Section where
  defines :=
    ["@cn_path_join", "@cn_path_file_name", "@cn_path_stem", "@cn_path_extension",
    "@cn_path_is_absolute", "@cn_path_parent"]
  declares := []
  calls :=
    ["@cn_dup_cstr", "@cn_dup_range", "@cn_track_str", "@malloc", "@memcpy", "@strlen"]

def emitRuntimeFs (host : Host) : Section where
  defines :=
    ["@cn_fs_exists", "@cn_fs_cwd", "@cn_fs_create_dir", "@cn_fs_remove_dir", "@cn_fs_read_text",
    "@cn_fs_file_size", "@cn_fs_copy", "@cn_fs_write_text", "@cn_fs_append_text", "@cn_fs_rename",
    "@cn_fs_remove"]
  declares := []
  calls :=
    ["@cn_track_str", "@fclose", "@fgetc", "@fopen", "@free", "@fwrite", "@malloc", "@realloc",
    "@remove", "@rename", "@strlen"] ++
    match host with
    | .windows =>
        ["@_getcwd", "@_mkdir", "@_rmdir"]
    | _ =>
        ["@getcwd", "@mkdir", "@rmdir"]

def emitRuntimeProcess : Section where
  defines :=
    ["@cn_process_platform", "@cn_process_arch", "@cn_process_exit"]
  declares := []
  calls :=
    ["@cn_dup_cstr", "@exit"]

def emitRuntimeIo : Section where
  defines :=
    ["@cn_write_int", "@cn_write_bool", "@cn_write_str", "@cn_print_int", "@cn_print_bool",
    "@cn_print_str", "@cn_input"]
  declares := []
  calls :=
    ["@cn_dup_cstr", "@getchar", "@printf", "@puts"]

/-- The functions of `std.term` that every host has. -/
def termFunctions : List String :=
  ["@cn_term_emit_escape", "@cn_term_emit_sgr_code", "@cn_term_clamp_rgb_component",
  "@cn_term_color_is_rgb", "@cn_term_color_component", "@cn_term_rgb", "@cn_term_contains",
  "@cn_term_has_utf_marker", "@cn_term_is_known_wide", "@cn_term_codepoint_width",
  "@cn_term_string_width", "@cn_term_string_decode_at", "@cn_term_decode_codepoint",
  "@cn_term_next_codepoint_offset", "@cn_term_reset_style", "@cn_term_set_style",
  "@cn_term_enable_mouse", "@cn_term_disable_mouse", "@cn_term_enable_bracketed_paste",
  "@cn_term_disable_bracketed_paste", "@cn_term_write_code", "@cn_term_make_cell",
  "@cn_term_make_event", "@cn_term_make_key_event", "@cn_term_make_mouse_event",
  "@cn_term_make_resize_event", "@cn_term_make_paste_event", "@cn_term_is_tty",
  "@cn_term_columns", "@cn_term_rows", "@cn_term_term_name", "@cn_term_supports_truecolor",
  "@cn_term_supports_256color", "@cn_term_supports_unicode", "@cn_term_supports_mouse",
  "@cn_term_poll_resize_event", "@cn_term_flush", "@cn_term_clear", "@cn_term_clear_line",
  "@cn_term_clear_line_left", "@cn_term_clear_line_right", "@cn_term_save_cursor",
  "@cn_term_restore_cursor", "@cn_term_hide_cursor", "@cn_term_show_cursor",
  "@cn_term_enter_alt_screen", "@cn_term_leave_alt_screen", "@cn_term_set_scroll_region",
  "@cn_term_reset_scroll_region", "@cn_term_move_cursor", "@cn_term_restore_raw_impl",
  "@cn_term_restore_raw_atexit", "@cn_term_enter_raw_mode", "@cn_term_leave_raw_mode",
  "@cn_term_read_byte_block", "@cn_term_read_byte_timeout", "@cn_term_read_byte",
  "@cn_term_decode_utf8", "@cn_term_decode_simple_byte", "@cn_term_csi_modifiers",
  "@cn_term_parse_mouse_sgr", "@cn_term_parse_csi", "@cn_term_parse_ss3", "@cn_term_read_paste",
  "@cn_term_read_event", "@cn_term_read_event_timeout", "@cn_term_buffer_index",
  "@cn_term_cells_equal", "@cn_term_buffer_new", "@cn_term_buffer_resize", "@cn_term_buffer_free",
  "@cn_term_buffer_clear", "@cn_term_buffer_set", "@cn_term_buffer_get",
  "@cn_term_render_diff_clip", "@cn_term_render_diff"]

def emitRuntimeTerm (host : Host) : Section where
  defines :=
    termFunctions ++
    match host with
    | .windows =>
        ["@cn_term_parse_windows_extended"]
    | _ =>
        ["@cn_term_on_sigwinch", "@cn_term_install_signal_handlers"]
  declares := []
  calls :=
    ["@atexit", "@cn_dup_cstr", "@cn_track_str", "@fflush", "@free", "@getenv", "@malloc",
    "@printf", "@putchar", "@realloc", "@strlen", "@strstr"] ++
    match host with
    | .windows =>
        ["@GetConsoleMode", "@GetConsoleScreenBufferInfo", "@GetStdHandle", "@SetConsoleMode",
        "@Sleep", "@_getch", "@_kbhit"]
    | _ =>
        ["@cfmakeraw", "@ioctl", "@isatty", "@memcpy", "@poll", "@read", "@signal", "@tcgetattr",
        "@tcsetattr", "@wcwidth"]

def emitRuntimeX11 : Host → Section
  | .linux =>
      { defines := ["@cn_x11_open_window", "@cn_x11_pump", "@cn_x11_close"]
        declares :=
          ["@XOpenDisplay", "@XDefaultScreen", "@XRootWindow", "@XBlackPixel", "@XWhitePixel",
          "@XCreateSimpleWindow", "@XStoreName", "@XInternAtom", "@XSetWMProtocols",
          "@XSelectInput", "@XMapWindow", "@XPending", "@XNextEvent", "@XFlush", "@XDestroyWindow",
          "@XCloseDisplay"]
        calls := ["@free", "@malloc"] }
  | _ => { defines := [], declares := [], calls := [] }

def emitRuntimePrelude (host : Host) (useX11 useIpc : Bool) : List Section :=
  [emitRuntimeDecls host, emitRuntimeCore, emitRuntimeBytes] ++
  (if useIpc then [emitRuntimeIpc] else []) ++
  [emitRuntimeLines, emitRuntimeStrings, emitRuntimeText, emitRuntimeParse, emitRuntimeMath,
    emitRuntimeTime host, emitRuntimeEnv, emitRuntimeNet host, emitRuntimePath,
    emitRuntimeFs host, emitRuntimeProcess, emitRuntimeIo, emitRuntimeTerm host] ++
  (if useX11 then [emitRuntimeX11 host] else [])

def Section.Provides (part : Section) (symbol : String) : Prop :=
  symbol ∈ part.defines ∨ symbol ∈ part.declares

/-- Some section defines or declares the function. -/
def Provided (parts : List Section) (symbol : String) : Prop :=
  ∃ part ∈ parts, part.Provides symbol

theorem Provided.mono {parts parts' : List Section} {symbol : String}
    (hsubset : parts ⊆ parts') (hprovided : Provided parts symbol) :
    Provided parts' symbol :=
  let ⟨part, hpart, hprovides⟩ := hprovided
  ⟨part, hsubset hpart, hprovides⟩

/-! What every prelude holds. -/

theorem base_subset (host : Host) (useX11 useIpc : Bool) :
    emitRuntimePrelude host false false ⊆ emitRuntimePrelude host useX11 useIpc := by
  intro part hpart
  cases useX11 <;> cases useIpc <;> simp [emitRuntimePrelude] at hpart ⊢ <;> grind

theorem mem_emitRuntimePrelude {host : Host} {useX11 useIpc : Bool} {part : Section}
    (hpart : part ∈ emitRuntimePrelude host useX11 useIpc) :
    part ∈ emitRuntimePrelude host false false ∨ (useIpc = true ∧ part = emitRuntimeIpc) ∨
      (useX11 = true ∧ part = emitRuntimeX11 host) := by
  cases useX11 <;> cases useIpc <;> simp [emitRuntimePrelude] at hpart ⊢ <;> grind

def symbolsOf (parts : List Section) : List String :=
  parts.flatMap fun part => part.defines ++ part.declares

theorem provided_of_mem {parts others : List Section} (hsubset : parts ⊆ others)
    {symbol : String} (hsymbol : symbol ∈ symbolsOf parts) : Provided others symbol := by
  obtain ⟨part, hpart, hmem⟩ := List.mem_flatMap.mp hsymbol
  exact ⟨part, hsubset hpart, List.mem_append.mp hmem⟩

/-! The sections that answer the builtin calls. -/

theorem rootCalls_symbols : ∀ entry ∈ rootCalls ++ ioCalls ++ processCalls, entry.symbol ∈ symbolsOf
    [emitRuntimeIo, emitRuntimeCore, emitRuntimeStrings, emitRuntimeProcess] := by
  simp only [rootCalls, ioCalls, processCalls, List.cons_append, List.nil_append, List.forall_mem_cons]
  repeat' first
    | exact List.forall_mem_nil _
    | exact List.mem_cons_self
    | apply And.intro
    | apply List.mem_cons_of_mem

theorem containerCalls_symbols : ∀ entry ∈ bytesCalls ++ linesCalls ++ textCalls, entry.symbol ∈ symbolsOf
    [emitRuntimeBytes, emitRuntimeLines, emitRuntimeText] := by
  simp only [bytesCalls, linesCalls, textCalls, List.cons_append, List.nil_append, List.forall_mem_cons]
  repeat' first
    | exact List.forall_mem_nil _
    | exact List.mem_cons_self
    | apply And.intro
    | apply List.mem_cons_of_mem

theorem termCalls_symbols (host : Host) : ∀ entry ∈ termCalls, entry.symbol ∈ symbolsOf
    [emitRuntimeIo, emitRuntimeTerm host] := by
  simp only [termCalls, List.forall_mem_cons]
  repeat' first
    | exact List.forall_mem_nil _
    | exact List.mem_cons_self
    | apply And.intro
    | apply List.mem_cons_of_mem

theorem hostCalls_symbols (host : Host) : ∀ entry ∈ timeCalls ++ fsCalls ++ netCalls, entry.symbol ∈ symbolsOf
    [emitRuntimeTime host, emitRuntimeNet host, emitRuntimeFs host] := by
  simp only [timeCalls, fsCalls, netCalls, List.cons_append, List.nil_append, List.forall_mem_cons]
  repeat' first
    | exact List.forall_mem_nil _
    | exact List.mem_cons_self
    | apply And.intro
    | apply List.mem_cons_of_mem

theorem stringsCalls_symbols (host : Host) : ∀ entry ∈ stringsCalls, entry.symbol ∈ symbolsOf
    [emitRuntimeStrings, emitRuntimeDecls host] := by
  simp only [stringsCalls, List.forall_mem_cons]
  repeat' first
    | exact List.forall_mem_nil _
    | exact List.mem_cons_self
    | apply And.intro
    | apply List.mem_cons_of_mem

theorem pureCalls_symbols : ∀ entry ∈ mathCalls ++ parseCalls ++ envCalls ++ pathCalls, entry.symbol ∈ symbolsOf
    [emitRuntimeMath, emitRuntimeParse, emitRuntimeEnv, emitRuntimePath] := by
  simp only [mathCalls, parseCalls, envCalls, pathCalls, List.cons_append, List.nil_append, List.forall_mem_cons]
  repeat' first
    | exact List.forall_mem_nil _
    | exact List.mem_cons_self
    | apply And.intro
    | apply List.mem_cons_of_mem

/-- The builtin calls of the modules that are not optional. -/
theorem namedCalls_provided (host : Host) {entry : NamedCall} (hentry : entry ∈ namedCalls)
    (hipc : entry ∉ ipcCalls) (hx11 : entry ∉ x11Calls) :
    Provided (emitRuntimePrelude host false false) entry.symbol := by
  have hgroups : entry ∈ rootCalls ++ ioCalls ++ processCalls ∨
      entry ∈ bytesCalls ++ linesCalls ++ textCalls ∨ entry ∈ termCalls ∨
      entry ∈ timeCalls ++ fsCalls ++ netCalls ∨ entry ∈ stringsCalls ∨
      entry ∈ mathCalls ++ parseCalls ++ envCalls ++ pathCalls := by
    simp only [namedCalls, List.mem_append] at hentry ⊢
    tauto
  rcases hgroups with hentry | hentry | hentry | hentry | hentry | hentry
  · exact provided_of_mem (by simp [emitRuntimePrelude]) (rootCalls_symbols entry hentry)
  · exact provided_of_mem (by simp [emitRuntimePrelude]) (containerCalls_symbols entry hentry)
  · exact provided_of_mem (by simp [emitRuntimePrelude]) (termCalls_symbols host entry hentry)
  · exact provided_of_mem (by simp [emitRuntimePrelude]) (hostCalls_symbols host entry hentry)
  · exact provided_of_mem (by simp [emitRuntimePrelude]) (stringsCalls_symbols host entry hentry)
  · exact provided_of_mem (by simp [emitRuntimePrelude]) (pureCalls_symbols entry hentry)

theorem ipcCalls_symbols : ∀ entry ∈ ipcCalls,
    entry.moduleName = "std.ipc" ∧ entry.symbol ∈ emitRuntimeIpc.defines := by
  simp only [ipcCalls, List.forall_mem_cons]
  repeat' first
    | exact List.forall_mem_nil _
    | exact trivial
    | exact List.mem_cons_self
    | apply And.intro
    | apply List.mem_cons_of_mem

theorem x11Calls_symbols : ∀ entry ∈ x11Calls,
    entry.moduleName = "std.x11" ∧ entry.symbol ∈ (emitRuntimeX11 .linux).defines := by
  simp only [x11Calls, List.forall_mem_cons]
  repeat' first
    | exact List.forall_mem_nil _
    | exact trivial
    | exact List.mem_cons_self
    | apply And.intro
    | apply List.mem_cons_of_mem

/-- Whatever a section names stands in four of the sections that are always there. -/
theorem calls_symbols (host : Host) : ∀ part ∈ emitRuntimePrelude host true true,
    ∀ symbol ∈ part.calls, symbol ∈ symbolsOf
      [emitRuntimeDecls host, emitRuntimeCore, emitRuntimeBytes, emitRuntimeStrings] := by
  cases host <;>
    simp only [emitRuntimePrelude, if_true, List.cons_append, List.nil_append,
      List.forall_mem_cons, emitRuntimeDecls, emitRuntimeCore, emitRuntimeBytes, emitRuntimeIpc,
      emitRuntimeLines, emitRuntimeStrings, emitRuntimeText, emitRuntimeParse, emitRuntimeMath,
      emitRuntimeTime, emitRuntimeEnv, emitRuntimeNet, emitRuntimePath, emitRuntimeFs,
      emitRuntimeProcess, emitRuntimeIo, emitRuntimeTerm, emitRuntimeX11] <;>
    repeat' first
      | exact List.forall_mem_nil _
      | exact List.mem_cons_self
      | apply And.intro
      | apply List.mem_cons_of_mem

theorem sectionCalls_provided {host : Host} {useX11 useIpc : Bool} {part : Section}
    (hpart : part ∈ emitRuntimePrelude host useX11 useIpc) :
    ∀ symbol ∈ part.calls, Provided (emitRuntimePrelude host useX11 useIpc) symbol := by
  have hfull : part ∈ emitRuntimePrelude host true true := by
    rcases mem_emitRuntimePrelude hpart with hbase | ⟨_, rfl⟩ | ⟨_, rfl⟩
    · exact base_subset host true true hbase
    · simp [emitRuntimePrelude]
    · simp [emitRuntimePrelude]
  intro symbol hsymbol
  refine (provided_of_mem (List.Subset.refl _) (calls_symbols host part hfull symbol hsymbol)).mono
    (List.Subset.trans ?_ (base_subset host useX11 useIpc))
  simp [emitRuntimePrelude]

end Llvm

end Cnegative
