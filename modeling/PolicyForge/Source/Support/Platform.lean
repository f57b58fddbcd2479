/-!
# The platform below

The declarations through which the generated code reaches the system that stores policies.
-/
namespace PolicyForge.Source.Support

def platformLines : List String := [
  "[ComImport]",
  "[Guid(\"EA502722-A23D-11D1-A7D3-0000F87571E3\")]",
  "internal class GroupPolicyClass",
  "\x7b",
  "\x7d",
  "",
  "[ComImport]",
  "[Guid(\"EA502723-A23D-11D1-A7D3-0000F87571E3\")]",
  "[InterfaceType(ComInterfaceType.InterfaceIsIUnknown)]",
  "internal interface IGroupPolicyObject",
  "\x7b",
  "    void New([MarshalAs(UnmanagedType.LPWStr)] string domainName, " ++
      "[MarshalAs(UnmanagedType.LPWStr)] string displayName, uint flags);",
  "",
  "    void OpenDSGPO([MarshalAs(UnmanagedType.LPWStr)] string path, uint flags);",
  "",
  "    void OpenLocalMachineGPO(uint flags);",
  "",
  "    void OpenRemoteMachineGPO([MarshalAs(UnmanagedType.LPWStr)] string computerName, uint flags);",
  "",
  "    void Save([MarshalAs(UnmanagedType.Bool)] bool machine, [MarshalAs(UnmanagedType.Bool)] " ++
      "bool add, [MarshalAs(UnmanagedType.LPStruct)] Guid extension, " ++
      "[MarshalAs(UnmanagedType.LPStruct)] Guid snapIn);",
  "",
  "    void Delete();",
  "",
  "    void GetName([MarshalAs(UnmanagedType.LPWStr)] StringBuilder name, int maxLength);",
  "",
  "    void GetDisplayName([MarshalAs(UnmanagedType.LPWStr)] StringBuilder name, int maxLength);",
  "",
  "    void SetDisplayName([MarshalAs(UnmanagedType.LPWStr)] string name);",
  "",
  "    void GetPath([MarshalAs(UnmanagedType.LPWStr)] StringBuilder path, int maxPath);",
  "",
  "    void GetDSPath(uint section, [MarshalAs(UnmanagedType.LPWStr)] StringBuilder path, int maxPath);",
  "",
  "    void GetFileSysPath(uint section, [MarshalAs(UnmanagedType.LPWStr)] StringBuilder path, int maxPath);",
  "",
  "    void GetRegistryKey(uint section, out IntPtr key);",
  "",
  "    void GetOptions(out uint options);",
  "",
  "    void SetOptions(uint options, uint mask);",
  "",
  "    void GetGpoType(out IntPtr gpoType);",
  "",
  "    void GetMachineName([MarshalAs(UnmanagedType.LPWStr)] StringBuilder name, int maxLength);",
  "",
  "    void GetPropertySheetPages(out IntPtr pages, out uint count);",
  "\x7d",
  "",
  "internal static class NativeMethods",
  "\x7b",
  "    internal const uint GPO_OPEN_LOAD_REGISTRY = 0x00000001;",
  "    internal const uint GPO_SECTION_USER = 1;",
  "    internal const uint GPO_SECTION_MACHINE = 2;",
  "",
  "    internal const uint KEY_ALL_ACCESS = 0x000F003F;",
  "",
  "    internal const uint REG_SZ = 1;",
  "    internal const uint REG_EXPAND_SZ = 2;",
  "    internal const uint REG_MULTI_SZ = 7;",
  "    internal const uint REG_DWORD = 4;",
  "    internal const uint REG_QWORD = 11;",
  "",
  "    internal const int ERROR_SUCCESS = 0;",
  "    internal const int ERROR_FILE_NOT_FOUND = 2;",
  "",
  "    [DllImport(\"advapi32.dll\", CharSet = CharSet.Unicode)]",
  "    internal static extern int RegCreateKeyEx(IntPtr key, string subKey, int reserved, string " ++
      "keyClass, uint options, uint desired, IntPtr securityAttributes, out IntPtr result, out " ++
      "uint disposition);",
  "",
  "    [DllImport(\"advapi32.dll\", CharSet = CharSet.Unicode)]",
  "    internal static extern int RegSetValueEx(IntPtr key, string valueName, int reserved, uint " ++
      "type, byte[] data, int dataLength);",
  "",
  "    [DllImport(\"advapi32.dll\", CharSet = CharSet.Unicode)]",
  "    internal static extern int RegDeleteValue(IntPtr key, string valueName);",
  "",
  "    [DllImport(\"advapi32.dll\", CharSet = CharSet.Unicode)]",
  "    internal static extern int RegDeleteTree(IntPtr key, string subKey);",
  "",
  "    [DllImport(\"advapi32.dll\")]",
  "    internal static extern int RegCloseKey(IntPtr key);",
  "\x7d"]

end PolicyForge.Source.Support
