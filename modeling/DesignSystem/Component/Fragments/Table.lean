import DesignSystem.Component.Fragments.Basic
/-!
# Fragments of the table
-/

namespace DesignSystem.Fragments

/-- The fragments of the table. -/
def table : Fragments where
  styles := Text.lines [
    ".wrapper \x7b",
    "  overflow-x: auto;",
    "  border: var(--ds-geometry-border-width) solid var(--ds-color-border);",
    "  border-radius: var(--ds-geometry-radius-lg);",
    "\x7d",
    "",
    ".table \x7b",
    "  width: 100%;",
    "  border-collapse: collapse;",
    "  font-family: var(--ds-typography-variants-body-fontFamily);",
    "  font-size: var(--ds-typography-fontSize-sm);",
    "  line-height: var(--ds-typography-variants-body-lineHeight);",
    "  color: var(--ds-color-text);",
    "\x7d",
    "",
    ".table th \x7b",
    "  padding: var(--ds-geometry-spacing-2) var(--ds-geometry-spacing-4);",
    "  font-family: var(--ds-typography-variants-label-fontFamily);",
    "  font-weight: var(--ds-typography-variants-label-fontWeight);",
    "  color: var(--ds-color-textMuted);",
    "  text-align: left;",
    "  background: var(--ds-color-surfaceMuted);",
    "  border-bottom: var(--ds-geometry-border-width) solid var(--ds-color-border);",
    "\x7d",
    "",
    ".table td \x7b",
    "  padding: var(--ds-geometry-spacing-2) var(--ds-geometry-spacing-4);",
    "  border-bottom: var(--ds-geometry-border-width) solid var(--ds-color-border);",
    "\x7d",
    "",
    ".table tbody tr:last-child td \x7b",
    "  border-bottom: none;",
    "\x7d",
    "",
    ".striped tbody tr:nth-child(even) \x7b",
    "  background: var(--ds-color-surface);",
    "\x7d"]
  element := Text.lines [
    "<div class=\"wrapper\" part=\"wrapper\">",
    "  <table class=\"table $\x7bthis.striped ? 'striped' : ''\x7d\">",
    "    <thead>",
    "      <tr>$\x7bthis.columns.map((column) => `<th scope=\"col\">$\x7bescapeHtml(column.label)\x7d</th>`).join('')\x7d</tr>",
    "    </thead>",
    "    <tbody>",
    "      $\x7bthis.rows",
    "        .map(",
    "          (row) =>",
    "            `<tr>$\x7bthis.columns",
    "              .map((column) => `<td>$\x7bescapeHtml(String(row[column.key] ?? ''))\x7d</td>`)",
    "              .join('')\x7d</tr>`,",
    "        )",
    "        .join('')\x7d",
    "    </tbody>",
    "  </table>",
    "</div>"]
  reactView := Text.lines [
    "return (",
    "  <div className=\x7bcx(styles.wrapper, className)\x7d>",
    "    <table className=\x7bcx(styles.table, striped && styles.striped)\x7d>",
    "      <thead>",
    "        <tr>",
    "          \x7bcolumns.map((column) => (",
    "            <th key=\x7bcolumn.key\x7d scope=\"col\">",
    "              \x7bcolumn.label\x7d",
    "            </th>",
    "          ))\x7d",
    "        </tr>",
    "      </thead>",
    "      <tbody>",
    "        \x7brows.map((row, index) => (",
    "          <tr key=\x7bindex\x7d>",
    "            \x7bcolumns.map((column) => (",
    "              <td key=\x7bcolumn.key\x7d>\x7brow[column.key] ?? ''\x7d</td>",
    "            ))\x7d",
    "          </tr>",
    "        ))\x7d",
    "      </tbody>",
    "    </table>",
    "  </div>",
    ");"]
  angularView := Text.lines [
    "<div class=\"wrapper\">",
    "  <table class=\"table\" [class.striped]=\"striped\">",
    "    <thead>",
    "      <tr>",
    "        <th *ngFor=\"let column of columns\" scope=\"col\">\x7b\x7b column.label \x7d\x7d</th>",
    "      </tr>",
    "    </thead>",
    "    <tbody>",
    "      <tr *ngFor=\"let row of rows\">",
    "        <td *ngFor=\"let column of columns\">\x7b\x7b row[column.key] ?? '' \x7d\x7d</td>",
    "      </tr>",
    "    </tbody>",
    "  </table>",
    "</div>"]
  elementMembers := none
  angularMembers := none

end DesignSystem.Fragments
